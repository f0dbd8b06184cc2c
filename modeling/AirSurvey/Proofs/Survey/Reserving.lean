import AirSurvey.Proofs.Survey.Admission
import AirSurvey.Proofs.Survey.Settling

set_option autoImplicit false

/-!
What a frame may lack. The lack is told before anything changes, and a frame that lacks nothing is
taken in without another look.
-/

namespace AirSurvey.Survey

variable {s : Survey} {c : Chronicle} {f : Frame} {known : Option Nat}

/-- What is missing for a frame of the device in a slot, if there is one yet. -/
def lacking (s : Survey) (c : Chronicle) (f : Frame) (known : Option Nat) : Option Supply :=
  if known = none ∧ s.devices.size = Capacity.devices then some .devices
  else if ∃ name, f.visibleName = some name ∧ s.networks.hasRoomFor name.text = false then
    some .networks
  else f.channel.bind fun channel =>
    if ∃ i, known = some i ∧ channel ∈ s.channels.channelsAt c.heard i then none
    else s.channels.shortage? channel

def lackNews (f : Frame) : Supply → Event
  | .devices => .noDeviceRoom f.source
  | .networks => .noNetworkRoom f.source
  | _ => .noChannelRoom f.source

theorem turnAway_run (e : Event) (supply : Supply) (s : Survey) :
    (turnAway e supply).run s = .ok ⟨s, [e], .error (.full supply)⟩ := by
  simp [turnAway]

theorem reserveDevice_run (s : Survey) (f : Frame) (known : Option Nat) :
    (reserveDevice f known).run s =
      if known = none ∧ s.devices.size = Capacity.devices then
        .ok ⟨s, [.noDeviceRoom f.source], .error (.full .devices)⟩
      else .ok ⟨s, [], .ok ()⟩ := by
  cases known with
  | some i => simp [reserveDevice]
  | none =>
    by_cases hfull : s.devices.size = Capacity.devices <;>
      simp [reserveDevice, Pool.isFull, hfull, turnAway_run]

theorem reserveNetwork_run (s : Survey) (f : Frame) :
    (reserveNetwork f).run s =
      if ∃ name, f.visibleName = some name ∧ s.networks.hasRoomFor name.text = false then
        .ok ⟨s, [.noNetworkRoom f.source], .error (.full .networks)⟩
      else .ok ⟨s, [], .ok ()⟩ := by
  cases hname : f.visibleName with
  | none => simp [reserveNetwork, hname]
  | some name =>
    cases hroom : s.networks.hasRoomFor name.text <;>
      simp [reserveNetwork, hname, hroom, turnAway_run]

theorem wasOn_eq (hs : s.Indexed c) (hknown : ∀ i, known = some i → (s.devices.at? i).isSome)
    (channel : UInt8) :
    s.wasOn known channel =
      .ok (decide (∃ i, known = some i ∧ channel ∈ s.channels.channelsAt c.heard i)) := by
  cases known with
  | none => simp [wasOn]
  | some i =>
    obtain ⟨d, hd⟩ := Option.isSome_iff_exists.1 (hknown i rfl)
    have hchain : deviceChain s.devices i = d.channels := deviceChain_of_at? hd
    have hon := hs.hearing.isOn i channel
    rw [hchain] at hon
    simp [wasOn, Pool.item_of_at? hd, bind, Except.bind, hon]

theorem reserveChannel_run (hs : s.Indexed c)
    (hknown : ∀ i, known = some i → (s.devices.at? i).isSome) :
    (reserveChannel f known).run s =
      match f.channel.bind fun channel =>
        if ∃ i, known = some i ∧ channel ∈ s.channels.channelsAt c.heard i then none
        else s.channels.shortage? channel with
      | some supply => .ok ⟨s, [.noChannelRoom f.source], .error (.full supply)⟩
      | none => .ok ⟨s, [], .ok ()⟩ := by
  cases hchannel : f.channel with
  | none => simp [reserveChannel, hchannel]
  | some channel =>
    have hwas := wasOn_eq hs hknown channel
    by_cases hon : ∃ i, known = some i ∧ channel ∈ s.channels.channelsAt c.heard i
    · simp only [hon, decide_true] at hwas
      simp [reserveChannel, hchannel, hwas, hon]
    · simp only [hon, decide_false] at hwas
      cases hshort : s.channels.shortage? channel <;>
        simp [reserveChannel, hchannel, hwas, hon, hshort, turnAway_run]

theorem shortage?_spec {t : ChannelTable} {channel : UInt8} {supply : Supply}
    (h : t.shortage? channel = some supply) : supply = .presences ∨ supply = .channels := by
  unfold ChannelTable.shortage? at h
  split at h
  · exact .inl (Option.some.inj h).symm
  · split at h
    · exact .inr (Option.some.inj h).symm
    · cases h

theorem reserve_run (hs : s.Indexed c)
    (hknown : ∀ i, known = some i → (s.devices.at? i).isSome) :
    (reserve f known).run s =
      match s.lacking c f known with
      | some supply => .ok ⟨s, [lackNews f supply], .error (.full supply)⟩
      | none => .ok ⟨s, [], .ok ()⟩ := by
  have hdevice := reserveDevice_run s f known
  have hnetwork := reserveNetwork_run s f
  have hchannel := reserveChannel_run (f := f) hs hknown
  unfold lacking
  split at hdevice
  · next h =>
    rw [if_pos h, reserve, Action.run_bind_of_refused hdevice]
    rfl
  · next h =>
    rw [if_neg h, reserve, Action.run_bind_of_ok hdevice, Action.following_nil]
    split at hnetwork
    · next h =>
      rw [if_pos h, Action.run_bind_of_refused hnetwork]
      rfl
    · next h =>
      rw [if_neg h, Action.run_bind_of_ok hnetwork, Action.following_nil, hchannel]
      split
      · next supply hsupply =>
        obtain ⟨channel, -, hshort⟩ := Option.bind_eq_some_iff.1 hsupply
        split at hshort
        · cases hshort
        · obtain rfl | rfl := shortage?_spec hshort <;> rfl
      · rfl

theorem lacking_eq_none_iff :
    s.lacking c f known = none ↔ (known = none → s.devices.size ≠ Capacity.devices) ∧
      (∀ name, f.visibleName = some name → s.networks.hasRoomFor name.text = true) ∧
      ∀ channel, f.channel = some channel →
        (∀ i, known = some i → channel ∉ s.channels.channelsAt c.heard i) →
          s.channels.shortage? channel = none := by
  unfold lacking
  split
  · next h => simp [h.1, h.2]
  · next h =>
    split
    · next hname =>
      obtain ⟨name, hname, hfull⟩ := hname
      simp only [reduceCtorEq, false_iff, not_and]
      exact fun _ hroom => absurd (hroom name hname) (by simp [hfull])
    · next hname =>
      have hdevices : known = none → s.devices.size ≠ Capacity.devices :=
        fun hknown hsize => h ⟨hknown, hsize⟩
      have hnames : ∀ name, f.visibleName = some name → s.networks.hasRoomFor name.text = true := by
        intro name hvisible
        by_contra hfull
        exact hname ⟨name, hvisible, by simpa using hfull⟩
      cases f.channel with
      | none => simpa using ⟨hdevices, hnames⟩
      | some channel =>
        simp only [Option.bind_some, ite_eq_left_iff, not_exists, not_and, Option.some.injEq,
          forall_eq']
        exact ⟨fun hroom => ⟨hdevices, hnames, hroom⟩, fun hroom => hroom.2.2⟩

end AirSurvey.Survey
