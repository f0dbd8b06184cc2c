import AirSurvey.Proofs.Survey.Berths

set_option autoImplicit false

/-!
Devices with their handles. The outlook of a survey together with where its devices are kept tells
all that the survey shows of them, except for the handles of their networks.
-/

namespace AirSurvey

def Device.plain (d : Device) : Device :=
  { d with inAges := .loose, inNetwork := .loose, channels := .empty, network := none }

/-- The device with an address, told from the outlook and from where devices are kept. -/
def Outlook.plain (x : Outlook) (b : Berths) (m : MacAddress) : Option Device :=
  (b.handleOf? m).bind fun h => (x.dossier m).map fun k => {
    id := h
    address := m
    profile := k.profile
    inAges := .loose
    inNetwork := .loose
    channels := .empty
    channelCount := UInt16.ofNat k.channels.length
    network := none
    accessPoint := (x.aim m).bind b.handleOf? }

def Outlook.portrait (x : Outlook) (b : Berths) (m : MacAddress) : Option (Device × Sight) :=
  (x.plain b m).bind fun d => (x.sight m).map fun sight => (d, sight)

def Reply.plain : Reply → Reply
  | .device d => .device d.plain
  | r => r

def Reply.onDevice (g : Device → Device) : Reply → Reply
  | .device d => .device (g d)
  | r => r

namespace Survey

variable {s t : Survey} {c c' : Chronicle} {i : Nat} {d : Device}

/-- All that a survey shows of a device, except for the handle of its network. -/
def portrait (s : Survey) (d : Device) : Except Fault (Device × Sight) :=
  (s.sight d).map fun sight => (d.plain, sight)

def portraits (s : Survey) (ds : Except Fault (List Device)) :
    Except Fault (List (Device × Sight)) := do
  (← ds).mapM s.portrait

theorem handleOf?_berths (hs : s.Indexed c) (hd : s.devices.at? i = some d) :
    s.berths.handleOf? d.address = some d.id := by
  change (s.addresses.find? d.address).bind s.devices.skeleton.handleAt? = _
  rw [(hs.roster.found d.address i).2 ⟨d, hd, rfl⟩, Option.bind_some, Pool.skeleton,
    Pool.handleAt?_view, hs.roster.handle i d hd]

theorem accessPoint_outlook (hs : s.Sound c) (hd : s.devices.at? i = some d) :
    ((s.outlook c).aim d.address).bind s.berths.handleOf? = d.accessPoint := by
  rw [aim_outlook hs.toIndexed hd, accessPointOf?]
  cases haim : d.accessPoint with
  | none => rfl
  | some h =>
    obtain ⟨a, ha, -⟩ := hs.aimed i d hd h haim
    have hdevice : s.device? h = some a := ha
    rw [Option.bind_some, hdevice, Option.map_some, Option.bind_some,
      handleOf?_berths hs.toIndexed (Pool.at?_of_get? ha), hs.roster.id_of_get? ha]

theorem plain_outlook (hs : s.Sound c) (hd : s.devices.at? i = some d) :
    (s.outlook c).plain s.berths d.address = some d.plain := by
  rw [Outlook.plain, handleOf?_berths hs.toIndexed hd, accessPoint_outlook hs hd,
    dossier_outlook hs.toIndexed hd, dossierAt, hd, Device.plain,
    channelCount_eq hs.toIndexed hd]
  rfl

theorem portrait_eq (hs : s.Sound c) (hd : s.devices.at? i = some d) :
    ∃ x, s.portrait d = .ok x ∧ (s.outlook c).portrait s.berths d.address = some x := by
  obtain ⟨x, hx, hsight⟩ := sight_eq hs.toIndexed hd
  refine ⟨(d.plain, x), ?_, ?_⟩
  · rw [portrait, hx, Action.map_ok]
  · rw [Outlook.portrait, plain_outlook hs hd, Option.bind_some, hsight, Option.map_some]

theorem Shows.portraits {answer : Except Fault (List Device)} {l : List MacAddress}
    (h : s.Shows answer l) (hs : s.Sound c) :
    s.portraits answer = .ok (l.filterMap ((s.outlook c).portrait s.berths)) :=
  h.mapM fun _ _ hd => portrait_eq hs hd

theorem addressIn_berths (hs : s.Indexed c) (ht : t.Indexed c') (hberths : t.berths = s.berths) :
    addressIn t.devices = addressIn s.devices := by
  funext i
  refine Option.ext fun m => ?_
  rw [← ht.roster.tells m i, ← hs.roster.tells m i]
  exact Eq.congr_left (congrFun (congrArg Berths.slotOf hberths) m)

theorem shows_device? (s : Survey) (k : Handle) : s.Shows (.ok (s.device? k).toList)
    (if s.berths.slots.handleAt? k.index = some k then (addressIn s.devices k.index).toList
      else []) := by
  have hhandle : s.berths.slots.handleAt? k.index = s.devices.handleAt? k.index :=
    Pool.handleAt?_view _ _ _
  rw [hhandle, device?, Pool.get?_eq]
  split
  · refine ⟨[k.index], ?_, ?_⟩
    · cases hd : s.devices.at? k.index <;> simp [hd]
    · cases ha : addressIn s.devices k.index <;> simp [ha]
  · exact ⟨[], rfl, rfl⟩

theorem Shows.eq_nil {answer : Except Fault (List Device)} (h : s.Shows answer []) :
    answer = .ok [] := by
  obtain ⟨slots, rfl, hnone⟩ := h
  rw [List.filterMap_eq_nil_iff] at hnone
  refine congrArg Except.ok (List.filterMap_eq_nil_iff.2 fun i hi => ?_)
  exact Option.map_eq_none_iff.1 (hnone i hi)

/-- Answers that tell the same are the same in what the devices with an address are the same in. -/
theorem Becomes.answer_eq {s' t' : Survey} {d d' : Chronicle} {o : Operation}
    {events events' : List Event} {answer answer' : Except Refusal Reply}
    (m : s.Becomes c o s' d events answer) (m' : t.Becomes c' o t' d' events' answer')
    {g g' : Device → Device} (hsame : ∀ i j e e', s'.devices.at? i = some e →
      t'.devices.at? j = some e' → e'.address = e.address → g' e' = g e)
    (htold : answer'.map Reply.tidings = answer.map Reply.tidings) :
    answer'.map (Reply.onDevice g') = answer.map (Reply.onDevice g) := by
  cases answer with
  | error r =>
    cases answer' with
    | error r' => exact congrArg Except.error (Except.error.inj htold)
    | ok reply' => cases htold
  | ok reply =>
    cases answer' with
    | error r' => cases htold
    | ok reply' =>
      have htold := Except.ok.inj htold
      refine congrArg Except.ok ?_
      cases reply with
      | device e =>
        cases reply' with
        | device e' =>
          obtain ⟨i, he⟩ := m.at?_of_device
          obtain ⟨j, he'⟩ := m'.at?_of_device
          exact congrArg Reply.device (hsame i j e e' he he' (Tidings.device.inj htold).1)
        | released n => cases htold
        | done => cases htold
      | released n =>
        cases reply' with
        | released n' => exact congrArg Reply.released (Tidings.released.inj htold)
        | device e' => cases htold
        | done => cases htold
      | done =>
        cases reply' with
        | done => rfl
        | device e' => cases htold
        | released n' => cases htold

theorem Becomes.plain_eq {s' t' : Survey} {d d' : Chronicle} {o : Operation}
    {events events' : List Event} {answer answer' : Except Refusal Reply}
    (m : s.Becomes c o s' d events answer)
    (m' : t.Becomes c' o t' d' events' answer') (hs' : s'.Sound d) (ht' : t'.Sound d')
    (hsame : ∀ a, (t'.outlook d').plain t'.berths a = (s'.outlook d).plain s'.berths a)
    (htold : answer'.map Reply.tidings = answer.map Reply.tidings) :
    answer'.map Reply.plain = answer.map Reply.plain := by
  have honDevice : Reply.plain = Reply.onDevice Device.plain := by
    funext reply
    cases reply <;> rfl
  rw [honDevice]
  refine m.answer_eq m' (fun i j e e' he he' haddress => ?_) htold
  have hplain := hsame e.address
  rw [plain_outlook hs' he, ← haddress, plain_outlook ht' he'] at hplain
  exact Option.some.inj hplain

end Survey

end AirSurvey
