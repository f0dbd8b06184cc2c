import AirSurvey.Proofs.Survey.Reading
import AirSurvey.Proofs.Survey.Runs

set_option autoImplicit false

/-!
What decides whether a frame is taken in, told from what the readers of a survey answer. A refused
frame leaves no trace.
-/

namespace AirSurvey

def Frame.newChannel (f : Frame) (channels : List UInt8) : Option UInt8 :=
  f.channel.filter fun channel => !channels.contains channel

namespace Survey

variable {s : Survey} {c : Chronicle} {f : Frame}

def knowsName (s : Survey) (name : NetworkName) : Bool :=
  s.networks.pool.entries.any fun e => e.2.name == name

def knowsChannel (s : Survey) (channel : UInt8) : Bool :=
  s.channelEntries.any fun e => e.channel == channel

/-- Why a frame is refused, if it is; `known` is the device that it comes from, if that is tracked,
and `channels` are those that the device was heard on. -/
def verdict (s : Survey) (f : Frame) (known : Option Device) (channels : List UInt8) :
    Option Refusal :=
  if f.source.isZero then some .zeroSource
  else if f.source.isGroup then some .groupSource
  else if f.channel = some 0 then some .channelZero
  else if known.isNone ∧ s.size = Capacity.devices then some (.full .devices)
  else if (f.name.any fun name => name.text != "" && !s.knowsName name) ∧
    s.networks.pool.size = Capacity.networks then some (.full .networks)
  else if (f.newChannel channels).isSome ∧ s.channels.presences.size = Capacity.presences then
    some (.full .presences)
  else if ((f.newChannel channels).any fun channel => !s.knowsChannel channel) ∧
    s.channelEntries.length = Capacity.channels then some (.full .channels)
  else if known.any fun d => f.timestamp < d.profile.lastSeen then some .clockBackwards
  else none

theorem knowsName_eq (s : Survey) (name : NetworkName) :
    s.knowsName name = (s.networks.find? name.text).isSome := by
  rw [knowsName, NetworkTable.find?, Option.isSome_map, Bool.eq_iff_iff, List.any_eq_true,
    List.find?_isSome]
  refine exists_congr fun e => and_congr_right fun _ => ?_
  simp only [beq_iff_eq]
  exact ⟨congrArg NetworkName.text, NetworkName.eq_of_text⟩

theorem knowsChannel_eq (s : Survey) (channel : UInt8) :
    s.knowsChannel channel = (s.channels.position? channel).isSome := by
  rw [knowsChannel, ChannelTable.position?, Array.findIdx?_isSome, channelEntries, Array.any_toList]

theorem lacksNetwork_iff :
    (∃ name, f.visibleName = some name ∧ s.networks.hasRoomFor name.text = false) ↔
      (f.name.any fun name => name.text != "" && !s.knowsName name) = true ∧
        s.networks.pool.size = Capacity.networks := by
  simp only [knowsName_eq, Frame.visibleName, NetworkName.isHidden, NetworkTable.hasRoomFor,
    Pool.isFull, Option.filter_eq_some_iff, Option.any_eq_true]
  constructor
  · intro hgiven
    rcases hgiven with ⟨name, ⟨hname, hvisible⟩, hroom⟩
    simp only [Bool.or_eq_false_iff, Bool.not_eq_false', beq_iff_eq] at hroom
    exact ⟨⟨name, hname, by simpa [hroom.2] using hvisible⟩, hroom.1⟩
  · intro hgiven
    rcases hgiven with ⟨⟨name, hname, hnew⟩, hfull⟩
    simp only [Bool.and_eq_true, Bool.not_eq_true', bne_iff_ne] at hnew
    exact ⟨name, ⟨hname, by simpa using hnew.1⟩, by simp [hfull, hnew.2]⟩

def knownChannels (s : Survey) (c : Chronicle) (known : Option Nat) : List UInt8 :=
  (known.map (s.channels.channelsAt c.heard)).getD []

theorem lacksChannel_eq (s : Survey) (c : Chronicle) (f : Frame) (known : Option Nat) :
    (f.channel.bind fun channel =>
      if ∃ i, known = some i ∧ channel ∈ s.channels.channelsAt c.heard i then none
      else s.channels.shortage? channel) =
      (f.newChannel (s.knownChannels c known)).bind s.channels.shortage? := by
  cases hchannel : f.channel with
  | none => simp [Frame.newChannel, hchannel]
  | some channel =>
    cases known with
    | none => simp [Frame.newChannel, hchannel, knownChannels, Option.filter_some]
    | some i =>
      by_cases hmem : channel ∈ s.channels.channelsAt c.heard i <;>
        simp [Frame.newChannel, hchannel, knownChannels, Option.filter_some, hmem]

theorem shortage?_eq (s : Survey) (channel : UInt8) :
    s.channels.shortage? channel =
      if s.channels.presences.size = Capacity.presences then some .presences
      else if s.knowsChannel channel = false ∧ s.channelEntries.length = Capacity.channels then
        some .channels
      else none := by
  simp [ChannelTable.shortage?, Pool.isFull, knowsChannel_eq, channelEntries]

theorem verdict_eq (hs : s.Indexed c) :
    s.verdict f ((s.addresses.find? f.source).bind s.devices.at?)
      (s.knownChannels c (s.addresses.find? f.source)) = s.refusalOf c f := by
  have hnone : ((s.addresses.find? f.source).bind s.devices.at?).isNone = true ↔
      s.addresses.find? f.source = none := by
    cases hfind : s.addresses.find? f.source with
    | none => simp
    | some i => simpa [Option.isSome_iff_ne_none] using occupied_of_find? hs hfind
  unfold verdict refusalOf Frame.validate
  split
  · rfl
  split
  · rfl
  split
  · rfl
  simp only [lacking, lacksNetwork_iff, lacksChannel_eq, hnone, size]
  split
  · rfl
  split
  · rfl
  cases hnew : f.newChannel (s.knownChannels c (s.addresses.find? f.source)) with
  | none => simp
  | some channel =>
    simp only [Option.bind_some, shortage?_eq, Option.isSome_some, true_and, Option.any_some,
      Bool.not_eq_true']
    split
    · rfl
    · split <;> rfl

theorem Settles.find?_source {s t : Survey} {c c' : Chronicle} {i : Nat} {d e : Device}
    {events : List Event} (m : s.Settles c f i d t c' events) (hs : s.Indexed c) (ht : t.Indexed c')
    (hd : s.devices.at? i = some d) (hsource : d.address = f.source)
    (he : t.devices.at? i = some e) : t.find? f.source = .ok (some e) := by
  have hfind := (hs.roster.found f.source i).2 ⟨d, hd, hsource⟩
  rw [find?_eq ht, m.frame.2.1, hfind, Option.bind_some, he]

/-- Once room was found for a frame, only its time can speak against it. -/
theorem refusalOf_of_reserved (hs : s.Indexed c) {o : Outcome Survey Unit}
    (hvalid : f.validate = .ok ())
    (hreserve : (reserve f (s.addresses.find? f.source)).run s = .ok o) (ho : o.answer = .ok ())
    {r : Refusal} (hr : s.refusalOf c f = some r) : r = .clockBackwards := by
  rw [reserve_run hs fun i => occupied_of_find? hs (m := f.source)] at hreserve
  simp only [refusalOf, hvalid] at hr
  split at hr
  · next supply hlack =>
    simp only [hlack, Except.ok.injEq] at hreserve
    simp [← hreserve] at ho
  · split at hr
    · exact (Option.some.inj hr).symm
    · cases hr

/-- A frame that is refused, for whatever reason, leaves the whole survey as it was. -/
theorem observe_atomic (hs : s.Reachable) (f : Frame) :
    ∃ o, (observe f).run s = .ok o ∧ ∀ r, o.answer = .error r → o.state = s := by
  obtain ⟨c, hs⟩ := hs.sound
  cases hrefusal : s.refusalOf c f with
  | some r => exact ⟨_, observe_refused hs.toIndexed hrefusal, fun _ _ => rfl⟩
  | none =>
    obtain ⟨i, d, s₁, c₁, e₁, t, c', e₂, e, hrun, -⟩ := observe_accepted hs hrefusal
    exact ⟨_, hrun, fun r hr => by cases hr⟩

theorem observe_atomic_backwards :
    ∃ o, (observe (.heardAt ⟨2, 0, 0, 0, 0, 1⟩ 3)).run
        (.ofRun .default [.observe (.heardAt ⟨2, 0, 0, 0, 0, 1⟩ 5)]) = .ok o ∧
      o.answer.map (fun _ => ()) = .error .clockBackwards ∧
      o.state = .ofRun .default [.observe (.heardAt ⟨2, 0, 0, 0, 0, 1⟩ 5)] := by
  obtain ⟨o, hrun, hatomic⟩ := observe_atomic
    (ofRun_reachable .default [.observe (.heardAt ⟨2, 0, 0, 0, 0, 1⟩ 5)])
    (.heardAt ⟨2, 0, 0, 0, 0, 1⟩ 3)
  have hanswer : ((observe (.heardAt ⟨2, 0, 0, 0, 0, 1⟩ 3)).run
      (.ofRun .default [.observe (.heardAt ⟨2, 0, 0, 0, 0, 1⟩ 5)])).toOption.map
        (fun o => o.answer.map fun _ => ()) = some (.error .clockBackwards) := by
    decide +kernel
  rw [hrun] at hanswer
  have hrefused := Option.some.inj hanswer
  refine ⟨o, hrun, hrefused, ?_⟩
  cases hr : o.answer with
  | error r => exact hatomic r hr
  | ok d => simp [hr, Except.map] at hrefused

/-- The verdict decides whether a frame is taken in, and once room was found for it nothing else is
lacking. -/
theorem observe_verdict (hs : s.Reachable) (f : Frame) :
    ∃ known channels, s.find? f.source = .ok known ∧
      (known = none → channels = []) ∧ (∀ d, known = some d → s.channelsOf d = .ok channels) ∧
      (∀ r, s.verdict f known channels = some r →
        ∃ events, (observe f).run s = .ok ⟨s, events, .error r⟩) ∧
      (s.verdict f known channels = none →
        ∃ t events d, (observe f).run s = .ok ⟨t, events, .ok d⟩ ∧
          t.find? f.source = .ok (some d)) ∧
      ∀ o o' r, f.validate = .ok () →
        (reserve f (s.addresses.find? f.source)).run s = .ok o → o.answer = .ok () →
        (observe f).run s = .ok o' → o'.answer = .error r → r = .clockBackwards := by
  obtain ⟨c, hs⟩ := hs.sound
  have hverdict := verdict_eq (f := f) hs.toIndexed
  refine ⟨_, s.knownChannels c (s.addresses.find? f.source), find?_eq hs.toIndexed _,
    fun hnone => ?_, fun d hd => ?_, fun r hr => ?_, fun hr => ?_, ?_⟩
  · cases hfind : s.addresses.find? f.source with
    | none => rfl
    | some i =>
      have hsome := occupied_of_find? hs.toIndexed hfind
      rw [hfind, Option.bind_some] at hnone
      simp [hnone] at hsome
  · obtain ⟨i, hfind, hi⟩ := Option.bind_eq_some_iff.1 hd
    rw [hfind]
    exact channelsOf_eq hs.toIndexed hi
  · exact ⟨_, observe_refused hs.toIndexed (hverdict ▸ hr)⟩
  · obtain ⟨i, d, s₁, c₁, e₁, t, c', e₂, e, hrun, harrives, hs₁, hsettles, he, ht⟩ :=
      observe_accepted hs (hverdict ▸ hr)
    exact ⟨t, _, e, hrun, hsettles.find?_source hs₁ ht.toIndexed harrives.device
      (harrives.address hs.toIndexed) he⟩
  · intro o o' r hvalid hreserve ho hrun hr
    cases hrefusal : s.refusalOf c f with
    | some r' =>
      obtain rfl := refusalOf_of_reserved hs.toIndexed hvalid hreserve ho hrefusal
      rw [observe_refused hs.toIndexed hrefusal, Except.ok.injEq] at hrun
      simpa [← hrun, eq_comm] using hr
    | none =>
      obtain ⟨i, d, s₁, c₁, e₁, t, c', e₂, e, hrun', -⟩ := observe_accepted hs hrefusal
      rw [hrun', Except.ok.injEq] at hrun
      simp [← hrun] at hr

theorem observe_verdict_second :
    ∃ t events d, (observe (.heardAt ⟨2, 0, 0, 0, 0, 2⟩ 7)).run
        (.ofRun .default [.observe (.heardAt ⟨2, 0, 0, 0, 0, 1⟩ 5)]) = .ok ⟨t, events, .ok d⟩ ∧
      t.find? ⟨2, 0, 0, 0, 0, 2⟩ = .ok (some d) := by
  obtain ⟨known, channels, hfind, hnone, -, -, haccepted, -⟩ := observe_verdict
    (ofRun_reachable .default [.observe (.heardAt ⟨2, 0, 0, 0, 0, 1⟩ 5)])
    (.heardAt ⟨2, 0, 0, 0, 0, 2⟩ 7)
  have hknown : (find? (.ofRun .default [.observe (.heardAt ⟨2, 0, 0, 0, 0, 1⟩ 5)])
      ⟨2, 0, 0, 0, 0, 2⟩).map Option.isNone = .ok true := by
    decide +kernel
  have hverdict : verdict (.ofRun .default [.observe (.heardAt ⟨2, 0, 0, 0, 0, 1⟩ 5)])
      (.heardAt ⟨2, 0, 0, 0, 0, 2⟩ 7) none [] = none := by
    decide +kernel
  have hfind' : find? (.ofRun .default [.observe (.heardAt ⟨2, 0, 0, 0, 0, 1⟩ 5)])
      ⟨2, 0, 0, 0, 0, 2⟩ = .ok known := hfind
  rw [hfind', Action.map_ok, Except.ok.injEq, Option.isNone_iff_eq_none] at hknown
  subst hknown
  rw [hnone rfl] at haccepted
  exact haccepted hverdict

end Survey

end AirSurvey
