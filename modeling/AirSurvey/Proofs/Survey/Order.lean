import AirSurvey.Proofs.Chain.Weave
import AirSurvey.Survey.Basic

set_option autoImplicit false

/-!
What it means that the indices of a survey are in step. Three sequences of slots say all that the
chains hold: the devices by age, the devices in networks by when they joined, and the presences by
when they began. The chain of a network, a device or a channel spells the part of a sequence that is
its own.
-/

namespace AirSurvey

open Chain (Woven)

/-- The slots of a survey in the orders that its chains keep. -/
structure Chronicle where
  ages : List Nat
  joined : List Nat
  heard : List Nat

/-- The part of an order that belongs to `a`. -/
def picked (key : Nat → Option Nat) (order : List Nat) (a : Nat) : List Nat :=
  order.filter fun i => key i == some a

section picked

variable {key key' : Nat → Option Nat} {order : List Nat} {a i : Nat}

@[simp] theorem mem_picked : i ∈ picked key order a ↔ i ∈ order ∧ key i = some a := by
  simp [picked]

theorem picked_congr (h : ∀ i ∈ order, key' i = key i) (a : Nat) :
    picked key' order a = picked key order a :=
  List.filter_congr fun i hi => by rw [h i hi]

theorem picked_filter (keep : Nat → Bool) :
    picked key (order.filter keep) a = (picked key order a).filter keep := by
  simp only [picked, List.filter_filter, Bool.and_comm]

theorem picked_append (r : List Nat) :
    picked key (order ++ r) a = picked key order a ++ picked key r a := by
  simp [picked]

theorem picked_singleton : picked key [i] a = if key i = some a then [i] else [] := by
  by_cases h : key i = some a <;> simp [picked, h]

theorem picked_append_new (hold : ∀ j ∈ order, key' j = key j) (hi : key' i = some a) (b : Nat) :
    picked key' (order ++ [i]) b =
      Function.update (picked key order) a (picked key order a ++ [i]) b := by
  rw [picked_append, picked_congr hold, picked_singleton, hi]
  by_cases hb : b = a
  · simp [hb]
  · have hb' : ¬ a = b := fun e => hb e.symm
    simp [hb, hb']

theorem picked_without (key : Nat → Option Nat) (order : List Nat) (i : Nat) (o : Option Nat)
    (b : Nat) :
    picked (Function.update key i o) (order.filter (· != i)) b =
      (picked key order b).filter (· != i) := by
  have hkey : ∀ j ∈ order.filter (· != i), Function.update key i o j = key j := fun j hj =>
    Function.update_of_ne (by simpa using (List.mem_filter.1 hj).2) _ _
  rw [picked_congr hkey, picked_filter]

theorem picked_nodup (h : order.Nodup) : (picked key order a).Nodup := h.filter _

end picked

def networkSlot (p : DevicePool) (i : Nat) : Option Nat :=
  (p.at? i).bind fun d => d.network.map Handle.index

def deviceChain (p : DevicePool) (i : Nat) : Chain Presence.byDevice :=
  ((p.at? i).map Device.channels).getD .empty

theorem deviceChain_of_at? {p : DevicePool} {i : Nat} {d : Device} (hd : p.at? i = some d) :
    deviceChain p i = d.channels := by
  rw [deviceChain, hd, Option.map_some, Option.getD_some]

def NetworkTable.chain (t : NetworkTable) (g : Nat) : Chain Device.byNetwork :=
  ((t.pool.at? g).map Network.members).getD .empty

def ChannelTable.chain (t : ChannelTable) (k : Nat) : Chain Presence.byChannel :=
  ((t.entries[k]?).map ChannelEntry.members).getD .empty

def ChannelTable.deviceOf (t : ChannelTable) (m : Nat) : Option Nat :=
  (t.presences.at? m).map Presence.device

def ChannelTable.numbers (t : ChannelTable) : List UInt8 :=
  t.entries.toList.map ChannelEntry.channel

def ChannelTable.entryOf (t : ChannelTable) (m : Nat) : Option Nat :=
  (t.presences.at? m).map Presence.entry

/-- The devices by age and by address. -/
structure Roster (p : DevicePool) (x : AddressIndex) (ages : Chain Device.byAge)
    (order : List Nat) : Prop where
  pool : p.Sound
  woven : Woven Device.byAge p (fun _ : Unit => ages) (fun _ => order)
  mem : ∀ i, i ∈ order ↔ (p.at? i).isSome
  found : ∀ m i, x.find? m = some i ↔ ∃ d, p.at? i = some d ∧ d.address = m
  once : (x.pairs.map Prod.fst).Nodup
  handle : ∀ i d, p.at? i = some d → p.handleAt? i = some d.id
  single : ∀ i d, p.at? i = some d → d.address.isZero = false ∧ d.address.isGroup = false

/-- The networks and their members, when `key` tells the network of each slot. -/
structure Grouping (p : DevicePool) (t : NetworkTable) (key : Nat → Option Nat)
    (order : List Nat) : Prop where
  pool : t.pool.Sound
  woven : Woven Device.byNetwork p t.chain (picked key order)
  nodup : order.Nodup
  mem : ∀ i, i ∈ order ↔ (key i).isSome
  distinct : ∀ g g' n n', t.pool.at? g = some n → t.pool.at? g' = some n' →
    n.name.text = n'.name.text → g = g'
  visible : ∀ g n, t.pool.at? g = some n → n.name.isHidden = false

/-- The presences on the chains of devices and of channels. -/
structure Hearing (t : ChannelTable) (chains : Nat → Chain Presence.byDevice)
    (order : List Nat) : Prop where
  pool : t.presences.Sound
  nodup : order.Nodup
  mem : ∀ m, m ∈ order ↔ (t.deviceOf m).isSome
  onDevice : Woven Presence.byDevice t.presences chains (picked t.deviceOf order)
  onChannel : Woven Presence.byChannel t.presences t.chain (picked t.entryOf order)
  entry : ∀ m k, t.entryOf m = some k → k < t.numbers.length
  once : ∀ m m', m ∈ order → m' ∈ order → t.deviceOf m = t.deviceOf m' →
    t.entryOf m = t.entryOf m' → m = m'
  distinct : t.numbers.Nodup
  room : t.numbers.length ≤ Capacity.channels

/-- The indices of a survey are in step, and `c` is what their chains spell. -/
structure Survey.Indexed (s : Survey) (c : Chronicle) : Prop where
  roster : Roster s.devices s.addresses s.ages c.ages
  grouping : Grouping s.devices s.networks (networkSlot s.devices) c.joined
  home : ∀ i d h, s.devices.at? i = some d → d.network = some h →
    s.networks.pool.handleAt? h.index = some h
  hearing : Hearing s.channels (deviceChain s.devices) c.heard
  owner : ∀ m i, s.channels.deviceOf m = some i → (s.devices.at? i).isSome
  count : ∀ i d, s.devices.at? i = some d → d.channelCount.toNat = d.channels.length

/-- Every access point that the device `d` has is tracked and heads the cell of the station `d`. -/
def Device.Aimed (p : DevicePool) (d : Device) : Prop :=
  ∀ h, d.accessPoint = some h →
    ∃ a, p.get? h = some a ∧ d.isStation = true ∧ d.profile.bssid = some a.address

structure Survey.Sound (s : Survey) (c : Chronicle) : Prop extends s.Indexed c where
  aimed : ∀ i d, s.devices.at? i = some d → d.Aimed s.devices

theorem woven_vacant {α ι : Type} {capacity : Nat} {f : LinkField α} {p : Pool α capacity}
    (h : ∀ i, p.at? i = none) : Woven f p (fun _ : ι => .empty) (fun _ => []) where
  spells _ := Chain.empty_spells _
  apart _ _ i hi := by simp at hi
  loose i x hx := by simp [h i] at hx

theorem Survey.new_sound (settings : Settings) : (Survey.new settings).Sound ⟨[], [], []⟩ where
  roster := by
    refine ⟨Pool.sound_empty, (woven_vacant Pool.at?_empty), ?_, ?_, ?_, ?_, ?_⟩ <;>
      simp [Survey.new, Pool.empty, Pool.at?, AddressIndex.empty, AddressIndex.find?]
  grouping := by
    refine ⟨Pool.sound_empty, (woven_vacant Pool.at?_empty).congr ?_ ?_, List.nodup_nil, ?_, ?_,
      ?_⟩ <;>
      simp [Survey.new, Pool.empty, Pool.at?, networkSlot, NetworkTable.empty, NetworkTable.chain,
        picked]
  home := by simp [Survey.new, Pool.empty, Pool.at?]
  hearing := by
    refine ⟨Pool.sound_empty, List.nodup_nil, ?_, (woven_vacant Pool.at?_empty).congr ?_ ?_,
      (woven_vacant Pool.at?_empty).congr ?_ ?_, ?_, ?_, ?_, ?_⟩ <;>
      simp [Survey.new, Pool.empty, Pool.at?, deviceChain, ChannelTable.empty, ChannelTable.chain,
        ChannelTable.numbers, ChannelTable.deviceOf, ChannelTable.entryOf, picked]
  owner := by simp [Survey.new, ChannelTable.empty, Pool.empty, Pool.at?, ChannelTable.deviceOf]
  count := by simp [Survey.new, Pool.empty, Pool.at?]
  aimed := by simp [Survey.new, Pool.empty, Pool.at?]

end AirSurvey
