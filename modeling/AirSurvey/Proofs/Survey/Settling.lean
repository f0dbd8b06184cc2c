import AirSurvey.Proofs.Survey.Following

set_option autoImplicit false

/-!
What the whole of following a frame comes to: of the devices only the sender changes, and of the
sender only its places in the indices and its access point.
-/

namespace AirSurvey

open Function (update)

def Device.face (d : Device) : Handle × MacAddress × Profile := (d.id, d.address, d.profile)

/-- `q` is `p` but for links and for the places of slot `i`. -/
structure Touched (i : Nat) (p q : DevicePool) : Prop where
  view : q.view Device.face = p.view Device.face
  kept : ∀ j, j ≠ i → (q.at? j).map Device.core = (p.at? j).map Device.core

namespace Touched

variable {i : Nat} {p q r : DevicePool}

theorem refl (i : Nat) (p : DevicePool) : Touched i p p := ⟨rfl, fun _ _ => rfl⟩

theorem trans (h₁ : Touched i p q) (h₂ : Touched i q r) : Touched i p r :=
  ⟨h₂.view.trans h₁.view, fun j hj => (h₂.kept j hj).trans (h₁.kept j hj)⟩

theorem modifyAt (p : DevicePool) (i : Nat) (f : Device → Device)
    (hf : ∀ x, (f x).face = x.face) : Touched i p (p.modifyAt i f) where
  view := Pool.view_modifyAt_of_eq _ _ _ _ hf
  kept j hj := by rw [Pool.at?_modifyAt, if_neg fun e => hj e.symm]

theorem exists_at? (h : Touched i p q) {j : Nat} {d : Device} (hd : p.at? j = some d) :
    ∃ e, q.at? j = some e ∧ e.face = d.face :=
  Pool.exists_of_view_eq h.view.symm hd

theorem exists_get? (h : Touched i p q) {k : Handle} {d : Device} (hd : p.get? k = some d) :
    ∃ e, q.get? k = some e ∧ e.face = d.face := by
  have hget : (q.get? k).map Device.face = (p.get? k).map Device.face := by
    rw [← Pool.get?_view, h.view, Pool.get?_view]
  rw [hd, Option.map_some, Option.map_eq_some_iff] at hget
  exact hget

end Touched

theorem Device.Aimed.mono {d : Device} {p q : DevicePool} (ha : d.Aimed p)
    (h : ∀ k a, p.get? k = some a → ∃ b, q.get? k = some b ∧ b.address = a.address) :
    d.Aimed q := by
  intro k hk
  obtain ⟨a, ha, hstation, hbssid⟩ := ha k hk
  obtain ⟨b, hb, hba⟩ := h k a ha
  exact ⟨b, hb, hstation, by rw [hba, hbssid]⟩

theorem Device.Aimed.touched {d : Device} {i : Nat} {p q : DevicePool} (ha : d.Aimed p)
    (h : Touched i p q) : d.Aimed q :=
  ha.mono fun _ _ hk => by
    obtain ⟨b, hb, hba⟩ := h.exists_get? hk
    exact ⟨b, hb, (congrArg (fun y => y.2.1) hba :)⟩

namespace Survey

variable {s t : Survey} {c c' : Chronicle} {i : Nat} {d : Device} {f : Frame} {events : List Event}

namespace FollowsName

theorem touched (m : s.FollowsName c f i d t c' events) : Touched i s.devices t.devices := by
  cases m with
  | stays => exact .refl i _
  | moves _ _ hmoved =>
    refine ⟨hmoved.view_eq _ (fun _ _ => rfl) fun _ _ => rfl, fun j hj => ?_⟩
    have hview := Pool.at?_map_of_view_eq (Pool.view_eq_comp hmoved.devices Device.core) j
    rw [Pool.at?_modifyAt, if_neg fun e => hj e.symm] at hview
    exact hview

theorem frame (m : s.FollowsName c f i d t c' events) :
    t.settings = s.settings ∧ t.addresses = s.addresses ∧ t.ages = s.ages ∧
      t.channels = s.channels ∧ c'.ages = c.ages ∧ c'.heard = c.heard := by
  cases m <;> simp

theorem accessPoints (m : s.FollowsName c f i d t c' events) :
    t.devices.view Device.accessPoint = s.devices.view Device.accessPoint := by
  cases m with
  | stays => rfl
  | moves _ _ hmoved => exact hmoved.view_eq _ (fun _ _ => rfl) fun _ _ => rfl

end FollowsName

namespace FollowsChannel

theorem touched (m : s.FollowsChannel c f i t c' events) : Touched i s.devices t.devices := by
  cases m with
  | stays => exact .refl i _
  | tunes => exact .modifyAt _ _ _ fun _ => rfl

theorem frame (m : s.FollowsChannel c f i t c' events) :
    t.settings = s.settings ∧ t.addresses = s.addresses ∧ t.ages = s.ages ∧
      t.networks = s.networks ∧ c'.ages = c.ages ∧ c'.joined = c.joined := by
  cases m <;> simp

theorem accessPoints (m : s.FollowsChannel c f i t c' events) :
    t.devices.view Device.accessPoint = s.devices.view Device.accessPoint := by
  cases m with
  | stays => rfl
  | tunes => exact Pool.view_modifyAt_of_eq _ _ _ _ fun _ => rfl

end FollowsChannel

inductive LooksAnew (s : Survey) (c : Chronicle) (d : Device) : Survey → List Event → Prop
  | outside (h : d.network = none) : LooksAnew s c d s []
  | inside {h : Handle} {isSplit : Bool} (hnetwork : d.network = some h)
      (hsplit : NetworkTable.splitAmong s.devices
        (picked (networkSlot s.devices) c.joined h.index) = isSplit) :
      LooksAnew s c d
        { s with networks := ⟨s.networks.pool.modifyAt h.index (.marked isSplit)⟩ }
        (s.networks.splitNews h isSplit)

theorem Indexed.marked (hs : s.Indexed c) (a : Nat) (isSplit : Bool) :
    Indexed { s with networks := ⟨s.networks.pool.modifyAt a (.marked isSplit)⟩ } c where
  roster := hs.roster
  grouping := hs.grouping.refreshed a isSplit
  home j e h he hh := by
    rw [Pool.handleAt?_modifyAt]
    exact hs.home j e h he hh
  hearing := hs.hearing
  owner := hs.owner
  count := hs.count

theorem LooksAnew.indexed (m : s.LooksAnew c d t events) (hs : s.Indexed c) : t.Indexed c := by
  cases m with
  | outside => exact hs
  | inside => exact hs.marked _ _

theorem LooksAnew.frame (m : s.LooksAnew c d t events) :
    t.settings = s.settings ∧ t.devices = s.devices ∧ t.addresses = s.addresses ∧
      t.ages = s.ages ∧ t.channels = s.channels := by
  cases m <;> simp

def lookAnew : Option Handle → Action Survey Unit
  | none => pure ()
  | some h => refreshSplit h

theorem lookAnew_run (hs : s.Indexed c) (hd : s.devices.at? i = some d) :
    ∃ t events, (lookAnew d.network).run s = .ok ⟨t, events, .ok ()⟩ ∧ s.LooksAnew c d t events := by
  cases hnetwork : d.network with
  | none => exact ⟨s, [], rfl, .outside hnetwork⟩
  | some h =>
    obtain ⟨n, hn⟩ := hs.exists_network hd hnetwork
    exact ⟨_, _, refreshSplit_run hs.grouping hn, .inside hnetwork rfl⟩

def settle (f : Frame) (i : Nat) : Action Survey Device := do
  followName f i
  followChannel f i
  resolveAccessPoint i
  lookAnew (← deviceAt i).network
  deviceAt i

/-- `t` is `s` once the indices have followed a frame of the device `d` in slot `i`. -/
inductive Settles (s : Survey) (c : Chronicle) (f : Frame) (i : Nat) (d : Device) :
    Survey → Chronicle → List Event → Prop
  | intro {s₁ s₂ t : Survey} {c₁ c₂ : Chronicle} {d₂ : Device} {e₁ e₂ e₃ : List Event}
      (name : s.FollowsName c f i d s₁ c₁ e₁) (channel : s₁.FollowsChannel c₁ f i s₂ c₂ e₂)
      (device : s₂.devices.at? i = some d₂)
      (split : (s₂.aimed i d₂).LooksAnew c₂ { d₂ with accessPoint := s₂.aimOf d₂ } t e₃) :
      Settles s c f i d t c₂ (e₁ ++ e₂ ++ e₃)

theorem settle_run (hs : s.Indexed c) (hd : s.devices.at? i = some d)
    (hname : ∀ name, f.visibleName = some name → s.networks.hasRoomFor name.text = true)
    (hchannel : ∀ channel, f.channel = some channel → channel ∉ s.channels.channelsAt c.heard i →
      s.channels.shortage? channel = none)
    (haim : d.accessPoint.isSome → d.profile.bssid.isSome) :
    ∃ t c' events e, (settle f i).run s = .ok ⟨t, events, .ok e⟩ ∧ t.devices.at? i = some e ∧
      s.Settles c f i d t c' events ∧ t.Indexed c' := by
  obtain ⟨s₁, c₁, e₁, hrun₁, hname⟩ := followName_run hs hd hname
  obtain ⟨-, -, -, hchannels, -, hheard⟩ := hname.frame
  have hs₁ := hname.indexed hs
  obtain ⟨d₁, hd₁, hface₁⟩ := hname.touched.exists_at? hd
  obtain ⟨s₂, c₂, e₂, hrun₂, hchannel⟩ :=
    followChannel_run hs₁ hd₁ (by rw [hchannels, hheard]; exact hchannel)
  have hs₂ := hchannel.indexed hs₁ hd₁
  obtain ⟨d₂, hd₂, hface₂⟩ := hchannel.touched.exists_at? hd₁
  have hprofile : d₂.profile = d.profile :=
    (congrArg (fun y => y.2.2) (hface₂.trans hface₁) :)
  have haccess : d₂.accessPoint = d.accessPoint := by
    have hi := Pool.at?_map_of_view_eq (hchannel.accessPoints.trans hname.accessPoints) i
    rw [hd₂, hd] at hi
    exact Option.some.inj hi
  have hrun₃ := resolveAccessPoint_run hs₂ hd₂ (by rw [haccess, hprofile]; exact haim)
  have hs₃ : (s₂.aimed i d₂).Indexed c₂ :=
    hs₂.of_places (Pool.view_modifyAt_of_eq _ _ _ _ fun _ => rfl)
  have hd₃ : (s₂.aimed i d₂).devices.at? i = some { d₂ with accessPoint := s₂.aimOf d₂ } := by
    simp [aimed, Pool.at?_modifyAt, hd₂]
  obtain ⟨t, e₃, hrun₄, hlook⟩ := lookAnew_run hs₃ hd₃
  obtain ⟨-, hdevices, -⟩ := hlook.frame
  have hdt := hd₃
  rw [← hdevices] at hdt
  refine ⟨t, c₂, e₁ ++ e₂ ++ e₃, _, ?_, hdt, .intro hname hchannel hd₂ hlook, hlook.indexed hs₃⟩
  rw [settle, Action.run_bind_of_ok hrun₁, Action.run_bind_of_ok hrun₂,
    Action.run_bind_of_ok hrun₃, Action.run_bind_of_ok (deviceAt_run hd₃),
    Action.run_bind_of_ok hrun₄, deviceAt_run hdt]
  simp

theorem aimOf_spec (hs : s.Indexed c) {h : Handle} (hh : s.aimOf d = some h) :
    ∃ a, s.devices.get? h = some a ∧ d.isStation = true ∧ d.profile.bssid = some a.address := by
  unfold aimOf at hh
  split at hh
  · next hstation =>
    obtain ⟨bssid, hbssid, hhandle⟩ := Option.bind_eq_some_iff.1 hh
    obtain ⟨k, hk, hat⟩ := Option.bind_eq_some_iff.1 hhandle
    obtain ⟨a, ha, hab⟩ := (hs.roster.found bssid k).1 hk
    obtain rfl := Pool.index_of_handleAt? hat
    exact ⟨a, (Pool.get?_eq_some_iff _ _ _).2 ⟨hat, ha⟩, hstation, hbssid.trans (by rw [hab])⟩
  · cases hh

namespace Settles

theorem frame (m : s.Settles c f i d t c' events) :
    t.settings = s.settings ∧ t.addresses = s.addresses ∧ t.ages = s.ages ∧ c'.ages = c.ages := by
  obtain ⟨hname, hchannel, -, hlook⟩ := m
  obtain ⟨hs₁, hx₁, ha₁, -, hc₁, -⟩ := hname.frame
  obtain ⟨hs₂, hx₂, ha₂, -, hc₂, -⟩ := hchannel.frame
  obtain ⟨hs₃, -, hx₃, ha₃, -⟩ := hlook.frame
  exact ⟨hs₃.trans (hs₂.trans hs₁), hx₃.trans (hx₂.trans hx₁), ha₃.trans (ha₂.trans ha₁),
    hc₂.trans hc₁⟩

theorem touched (m : s.Settles c f i d t c' events) : Touched i s.devices t.devices := by
  obtain ⟨hname, hchannel, -, hlook⟩ := m
  obtain ⟨-, hdevices, -⟩ := hlook.frame
  rw [hdevices]
  exact (hname.touched.trans hchannel.touched).trans (.modifyAt _ _ _ fun _ => rfl)

theorem sound (m : s.Settles c f i d t c' events) (hs : s.Indexed c) (hd : s.devices.at? i = some d)
    (haimed : ∀ j e, j ≠ i → s.devices.at? j = some e → e.Aimed s.devices) (ht : t.Indexed c') :
    t.Sound c' where
  toIndexed := ht
  aimed j e he := by
    by_cases hj : j = i
    · subst hj
      obtain ⟨hname, hchannel, hd₂, hlook⟩ := m
      obtain ⟨-, hdevices, -⟩ := hlook.frame
      obtain ⟨d₁, hd₁, -⟩ := hname.touched.exists_at? hd
      have hs₂ := hchannel.indexed (hname.indexed hs) hd₁
      rw [hdevices, aimed, Pool.at?_modifyAt, if_pos rfl, hd₂, Option.map_some,
        Option.some.injEq] at he
      subst he
      rw [hdevices]
      refine Device.Aimed.touched (fun h hh => ?_) (.modifyAt _ j _ fun _ => rfl)
      exact aimOf_spec hs₂ hh
    · have hcore := m.touched.kept j hj
      rw [he, Option.map_some] at hcore
      obtain ⟨e', he', hee⟩ := Option.map_eq_some_iff.1 hcore.symm
      have haim : e'.core.Aimed t.devices := (haimed j e' hj he').touched m.touched
      rw [hee] at haim
      exact haim

end Settles

end Survey

end AirSurvey
