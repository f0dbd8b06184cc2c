import AirSurvey.Proofs.Action
import AirSurvey.Proofs.Survey.Order

set_option autoImplicit false

/-!
Presences and channels: what looking up, joining and leaving channels does to the chains of devices
and of channels.
-/

namespace AirSurvey

open Chain (Woven Relinked)
open Function (update)

namespace ChannelTable

variable {t : ChannelTable}

theorem numbers_getElem? (t : ChannelTable) (k : Nat) :
    t.numbers[k]? = t.entries[k]?.map ChannelEntry.channel := by
  simp [numbers]

theorem length_numbers (t : ChannelTable) : t.numbers.length = t.entries.size := by
  simp [numbers]

def channelAt (t : ChannelTable) (m : Nat) : Option UInt8 :=
  (t.entryOf m).bind fun k => t.numbers[k]?

def channelsAt (t : ChannelTable) (order : List Nat) (i : Nat) : List UInt8 :=
  (picked t.deviceOf order i).filterMap t.channelAt

theorem position?_eq_none_iff (channel : UInt8) :
    t.position? channel = none ↔ channel ∉ t.numbers := by
  simp only [position?, Array.findIdx?_eq_none_iff, numbers, List.mem_map, not_exists, not_and,
    Array.mem_toList_iff, beq_eq_false_iff_ne]

theorem numbers_of_position? {channel : UInt8} {k : Nat} (h : t.position? channel = some k) :
    t.numbers[k]? = some channel := by
  obtain ⟨hk, hchannel, -⟩ := Array.findIdx?_eq_some_iff_getElem.1 h
  rw [numbers_getElem?, Array.getElem?_eq_getElem hk]
  simpa using hchannel

theorem entryAt_of_getElem? {k : Nat} {e : ChannelEntry} (h : t.entries[k]? = some e) :
    t.entryAt k = .ok e := by
  simp [entryAt, h]

theorem chain_withMembers {k : Nat} {e : ChannelEntry} {p : Pool Presence Capacity.presences}
    (hk : k < t.entries.size) (d : Chain Presence.byChannel) (b : Nat) :
    (t.withMembers k e (d, p)).chain b = update t.chain k d b := by
  simp only [withMembers, chain, Array.getElem?_setIfInBounds]
  by_cases hb : k = b
  · subst hb
    simp [hk]
  · rw [if_neg hb, Function.update_of_ne fun e => hb e.symm]
    rfl

theorem numbers_withMembers {k : Nat} {e : ChannelEntry} {p : Pool Presence Capacity.presences}
    (he : t.entries[k]? = some e) (d : Chain Presence.byChannel) :
    (t.withMembers k e (d, p)).numbers = t.numbers := by
  apply List.ext_getElem?
  intro j
  rw [numbers_getElem?, numbers_getElem?, withMembers, Array.getElem?_setIfInBounds]
  split
  · next hj =>
    subst hj
    obtain ⟨hk, rfl⟩ := Array.getElem?_eq_some_iff.1 he
    simp [hk]
  · rfl

/-- `u` is `t` with a place for a channel, which is new if the channel was not heard of. -/
structure Placed (t : ChannelTable) (channel : UInt8) (u : ChannelTable) (k : Nat) : Prop where
  presences : u.presences = t.presences
  number : u.numbers[k]? = some channel
  numbers : u.numbers = if channel ∈ t.numbers then t.numbers else t.numbers ++ [channel]
  chain : ∀ b, u.chain b = t.chain b

theorem Placed.getElem? {channel : UInt8} {u : ChannelTable} {k : Nat} (h : t.Placed channel u k)
    {j : Nat} (hj : j < t.numbers.length) : u.numbers[j]? = t.numbers[j]? := by
  rw [h.numbers]
  split
  · rfl
  · rw [List.getElem?_append_left hj]

theorem Placed.deviceOf {channel : UInt8} {u : ChannelTable} {k : Nat} (h : t.Placed channel u k) :
    u.deviceOf = t.deviceOf :=
  funext fun m => by simp only [ChannelTable.deviceOf, h.presences]

theorem Placed.entryOf {channel : UInt8} {u : ChannelTable} {k : Nat} (h : t.Placed channel u k) :
    u.entryOf = t.entryOf :=
  funext fun m => by simp only [ChannelTable.entryOf, h.presences]

theorem place_run (channel : UInt8)
    (hroom : channel ∉ t.numbers → t.entries.size ≠ Capacity.channels) :
    ∃ u k, (place channel).run t =
        .ok ⟨u, if channel ∈ t.numbers then [] else [.newChannel channel], .ok k⟩ ∧
      t.Placed channel u k := by
  cases hpos : t.position? channel with
  | some k =>
    have hmem : channel ∈ t.numbers := by
      have hnone := position?_eq_none_iff (t := t) channel
      by_contra hc
      simp [hpos, hc] at hnone
    refine ⟨t, k, ?_, rfl, numbers_of_position? hpos, by simp [hmem], fun _ => rfl⟩
    simp [place, hpos, hmem]
  | none =>
    have hmem := (position?_eq_none_iff channel).1 hpos
    refine ⟨{ t with entries := t.entries.push ⟨channel, .empty⟩ }, t.entries.size, ?_, rfl, ?_, ?_,
      fun b => ?_⟩
    · simp [place, hpos, hmem, hroom hmem, Except.map]
    · simp [numbers_getElem?]
    · rw [if_neg hmem]
      simp [numbers]
    · simp only [chain, Array.getElem?_push]
      split
      · next hb => simp [hb]
      · rfl

theorem shortage?_eq_none_iff (channel : UInt8) :
    t.shortage? channel = none ↔ t.presences.size ≠ Capacity.presences ∧
      (channel ∉ t.numbers → t.entries.size ≠ Capacity.channels) := by
  rw [← position?_eq_none_iff]
  by_cases hfull : t.presences.size = Capacity.presences <;>
    simp [shortage?, Pool.isFull, hfull]

/-- `u` is `t` with a presence `m` of the device in slot `i` on a channel, which is at place `k`. -/
structure Joined (t : ChannelTable) (i : Nat) (channel : UInt8) (m k : Nat) (u : ChannelTable) :
    Prop where
  numbers : u.numbers = if channel ∈ t.numbers then t.numbers else t.numbers ++ [channel]
  number : u.numbers[k]? = some channel
  slot : m = t.presences.vacancy
  vacant : t.deviceOf m = none
  deviceOf : u.deviceOf = update t.deviceOf m (some i)
  entryOf : u.entryOf = update t.entryOf m (some k)
  size : u.presences.size = t.presences.size + 1

def placeNews (t : ChannelTable) (channel : UInt8) : List Event :=
  if channel ∈ t.numbers then [] else [.newChannel channel]

end ChannelTable

variable {t : ChannelTable} {chains : Nat → Chain Presence.byDevice} {order : List Nat}

namespace Hearing

theorem exists_entry (h : Hearing t chains order) {m : Nat} {x : Presence}
    (hx : t.presences.at? m = some x) : ∃ e, t.entries[x.entry]? = some e := by
  have hlt := h.entry m x.entry (by simp [ChannelTable.entryOf, hx])
  rw [ChannelTable.length_numbers] at hlt
  exact ⟨_, Array.getElem?_eq_getElem hlt⟩

theorem exists_presence (h : Hearing t chains order) {m : Nat} (hm : m ∈ order) :
    ∃ x, t.presences.at? m = some x := by
  simpa [ChannelTable.deviceOf, Option.isSome_iff_exists] using (h.mem m).1 hm

theorem channelOf (h : Hearing t chains order) {m : Nat} (hm : m ∈ order) :
    ∃ channel, t.channelAt m = some channel ∧ t.channelOf m = .ok channel := by
  obtain ⟨x, hx⟩ := h.exists_presence hm
  obtain ⟨e, he⟩ := h.exists_entry hx
  refine ⟨e.channel, ?_, ?_⟩
  · simp [ChannelTable.channelAt, ChannelTable.entryOf, hx, ChannelTable.numbers_getElem?, he]
  · simp [ChannelTable.channelOf, Pool.item_of_at? hx, ChannelTable.entryAt_of_getElem? he, bind,
      Except.bind, pure, Except.pure]

theorem channelsOf (h : Hearing t chains order) (i : Nat) :
    t.channelsOf (chains i) = .ok (t.channelsAt order i) := by
  have hs : (picked t.deviceOf order i).mapM t.channelOf = _ :=
    mapM_eq_filterMap fun m hm => h.channelOf (mem_picked.1 hm).1
  simp [ChannelTable.channelsOf, (h.onDevice.spells i).toList, hs, ChannelTable.channelsAt, bind,
    Except.bind]

theorem isOn (h : Hearing t chains order) (i : Nat) (channel : UInt8) :
    t.isOn (chains i) channel = .ok ((t.channelsAt order i).contains channel) := by
  simp [ChannelTable.isOn, h.channelsOf i, bind, Except.bind, pure, Except.pure]

theorem placed (h : Hearing t chains order) {channel : UInt8} {u : ChannelTable} {k : Nat}
    (hu : t.Placed channel u k) (hroom : channel ∉ t.numbers → t.entries.size ≠ Capacity.channels) :
    Hearing u chains order := by
  have hdevice := hu.deviceOf
  have hentry := hu.entryOf
  have hle : t.numbers.length ≤ u.numbers.length := by
    rw [hu.numbers]
    split <;> simp
  constructor
  · exact hu.presences ▸ h.pool
  · exact h.nodup
  · exact hdevice ▸ h.mem
  · rw [hdevice, hu.presences]
    exact h.onDevice
  · rw [hentry, hu.presences]
    exact h.onChannel.congr hu.chain fun _ => rfl
  · intro m j hj
    exact Nat.lt_of_lt_of_le (h.entry m j (hentry ▸ hj)) hle
  · rw [hdevice, hentry]
    exact h.once
  · rw [hu.numbers]
    split
    · exact h.distinct
    · next hc =>
      simpa [List.nodup_append, h.distinct] using fun a ha => fun e : a = channel => hc (e ▸ ha)
  · rw [hu.numbers]
    split
    · exact h.room
    · next hc =>
      have hne := hroom hc
      have hle := h.room
      rw [ChannelTable.length_numbers] at hle
      simp only [List.length_append, ChannelTable.length_numbers, List.length_singleton]
      omega

/-- One more presence, at the end of the chain of its device and of that of its channel. -/
theorem extended (h : Hearing t chains order) {u : ChannelTable}
    {chains' : Nat → Chain Presence.byDevice} {m i k : Nat} (hm : t.deviceOf m = none)
    (hpool : u.presences.Sound) (hnumbers : u.numbers = t.numbers)
    (hdevice : u.deviceOf = update t.deviceOf m (some i))
    (hentry : u.entryOf = update t.entryOf m (some k)) (hk : k < t.numbers.length)
    (hnew : ∀ j ∈ order, t.deviceOf j = some i → t.entryOf j ≠ some k)
    (hv : Woven Presence.byDevice u.presences chains'
      (update (picked t.deviceOf order) i (picked t.deviceOf order i ++ [m])))
    (hw : Woven Presence.byChannel u.presences u.chain
      (update (picked t.entryOf order) k (picked t.entryOf order k ++ [m]))) :
    Hearing u chains' (order ++ [m]) := by
  have hnot : m ∉ order := fun hmem => by simpa [hm] using (h.mem m).1 hmem
  have hne : ∀ j ∈ order, j ≠ m := fun j hj e => hnot (e ▸ hj)
  constructor
  · exact hpool
  · simpa [List.nodup_append, h.nodup] using hne
  · intro j
    rw [hdevice, List.mem_append, h.mem, List.mem_singleton]
    by_cases hj : j = m
    · subst hj
      simp
    · simp [hj]
  · rw [hdevice]
    exact hv.congr (fun _ => rfl)
      (picked_append_new (fun j hj => Function.update_of_ne (hne j hj) _ _) (by simp))
  · rw [hentry]
    exact hw.congr (fun _ => rfl)
      (picked_append_new (fun j hj => Function.update_of_ne (hne j hj) _ _) (by simp))
  · intro j l hj
    rw [hnumbers]
    by_cases hjm : j = m
    · subst hjm
      rw [hentry, Function.update_self, Option.some.injEq] at hj
      exact hj ▸ hk
    · rw [hentry, Function.update_of_ne hjm] at hj
      exact h.entry j l hj
  · have hfresh : ∀ j ∈ order, ¬ (t.deviceOf j = some i ∧ t.entryOf j = some k) :=
      fun j hj e => hnew j hj e.1 e.2
    intro j l hj hl hd he
    rw [hdevice] at hd
    rw [hentry] at he
    rw [List.mem_append, List.mem_singleton] at hj hl
    obtain hj | rfl := hj <;> obtain hl | rfl := hl
    · rw [Function.update_of_ne (hne j hj), Function.update_of_ne (hne l hl)] at hd he
      exact h.once j l hj hl hd he
    · rw [Function.update_of_ne (hne j hj), Function.update_self] at hd he
      exact absurd ⟨hd, he⟩ (hfresh j hj)
    · rw [Function.update_self, Function.update_of_ne (hne l hl)] at hd he
      exact absurd ⟨hd.symm, he.symm⟩ (hfresh l hl)
    · rfl
  · exact hnumbers ▸ h.distinct
  · exact hnumbers ▸ h.room

theorem attach {p : Pool Presence Capacity.presences} {chains₁ : Nat → Chain Presence.byDevice}
    {chains₂ : Nat → Chain Presence.byChannel} {lists₁ lists₂ : Nat → List Nat} {m : Nat}
    {x : Presence} (hv : Woven Presence.byDevice p chains₁ lists₁)
    (hw : Woven Presence.byChannel p chains₂ lists₂) (hx : p.at? m = some x)
    (h₁ : ∀ a, m ∉ lists₁ a) (h₂ : ∀ a, m ∉ lists₂ a) (i k : Nat) :
    ∃ d₂ p₂ d₃ p₃, (chains₂ k).pushBack p m = .ok (d₂, p₂) ∧
      (chains₁ i).pushBack p₂ m = .ok (d₃, p₃) ∧
      Woven Presence.byDevice p₃ (update chains₁ i d₃) (update lists₁ i (lists₁ i ++ [m])) ∧
      Woven Presence.byChannel p₃ (update chains₂ k d₂) (update lists₂ k (lists₂ k ++ [m])) ∧
      p₃.view (fun x => (x.device, x.entry)) = p.view fun x => (x.device, x.entry) := by
  obtain ⟨d₂, p₂, hrun₂, hw₂, hpool₂⟩ := hw.pushBack k hx h₂
  have hv₂ := hv.transport
    (Pool.at?_map_of_view_eq (hpool₂.view_eq Presence.onDevice fun _ _ => rfl))
  obtain ⟨x₂, hx₂⟩ : ∃ x, p₂.at? m = some x := by
    have hsome := Pool.isSome_of_view_eq hpool₂.view m
    rwa [hx, Option.isSome_some, Option.isSome_iff_exists] at hsome
  obtain ⟨d₃, p₃, hrun₃, hv₃, hpool₃⟩ := hv₂.pushBack i hx₂ h₁
  have hw₃ := hw₂.transport
    (Pool.at?_map_of_view_eq (hpool₃.view_eq Presence.onChannel fun _ _ => rfl))
  exact ⟨d₂, p₂, d₃, p₃, hrun₂, hrun₃, hv₃, hw₃,
    (hpool₃.view_eq _ fun _ _ => rfl).trans (hpool₂.view_eq _ fun _ _ => rfl)⟩

theorem join (h : Hearing t chains order) (i : Nat) (channel : UInt8)
    (hroom : t.shortage? channel = none) (hnew : channel ∉ t.channelsAt order i) :
    ∃ u d m k, (ChannelTable.join i (chains i) channel).run t =
        .ok ⟨u, t.placeNews channel, .ok d⟩ ∧
      Hearing u (update chains i d) (order ++ [m]) ∧ t.Joined i channel m k u := by
  obtain ⟨hfull, hroom⟩ := (t.shortage?_eq_none_iff channel).1 hroom
  obtain ⟨t₁, k, hrun, hu⟩ := t.place_run channel hroom
  have h₁ := h.placed hu hroom
  obtain ⟨hd, p₁, hins, ht⟩ := h₁.pool.insert?_room (fun _ => ⟨i, k, .loose, .loose⟩)
    (by rwa [hu.presences])
  obtain ⟨e, he, hechannel⟩ : ∃ e, t₁.entries[k]? = some e ∧ e.channel = channel := by
    simpa [ChannelTable.numbers_getElem?] using hu.number
  have hk : k < t₁.entries.size := (Array.getElem?_eq_some_iff.1 he).1
  have hvac : t₁.deviceOf hd.index = none := by simp [ChannelTable.deviceOf, ht.vacant]
  have hnot : hd.index ∉ order := fun hm => by simpa [hvac] using (h₁.mem _).1 hm
  obtain ⟨d₂, p₂, d₃, p₃, hrun₂, hrun₃, hv, hw, hpair⟩ := attach (h₁.onDevice.occupied ht rfl)
    (h₁.onChannel.occupied ht rfl) (by rw [ht.at?, if_pos rfl]) (fun b => by simp [hnot])
    (fun b => by simp [hnot]) i k
  have hchain : t₁.chain k = e.members := by simp [ChannelTable.chain, he]
  rw [hchain] at hrun₂
  let u := t₁.withMembers k e (d₂, p₃)
  have hnumbers : u.numbers = t₁.numbers := ChannelTable.numbers_withMembers he d₂
  have hdevice : u.deviceOf = update t₁.deviceOf hd.index (some i) :=
    (funext (Pool.at?_map_of_view_eq (Pool.view_eq_comp hpair Prod.fst))).trans
      (ht.read (Option.map Presence.device))
  have hentry : u.entryOf = update t₁.entryOf hd.index (some k) :=
    (funext (Pool.at?_map_of_view_eq (Pool.view_eq_comp hpair Prod.snd))).trans
      (ht.read (Option.map Presence.entry))
  have hother : ∀ j ∈ order, t₁.deviceOf j = some i → t₁.entryOf j ≠ some k := by
    intro j hj hji hjk
    rw [hu.deviceOf] at hji
    rw [hu.entryOf] at hjk
    refine hnew (List.mem_filterMap.2 ⟨j, mem_picked.2 ⟨hj, hji⟩, ?_⟩)
    rw [ChannelTable.channelAt, hjk, Option.bind_some, ← hu.getElem? (h.entry j k hjk)]
    exact hu.number
  refine ⟨u, d₃, hd.index, k, ?_,
    h₁.extended hvac (ht.sound.of_view_eq hpair) hnumbers hdevice hentry
      (by rw [ChannelTable.length_numbers]; exact hk) hother hv
      (hw.congr (ChannelTable.chain_withMembers hk d₂) fun _ => rfl),
    hnumbers.trans hu.numbers, by rw [hnumbers, hu.number], ?_, ?_, ?_, ?_, ?_⟩
  · rw [ChannelTable.join, Action.run_bind_of_ok hrun]
    simp [hins, ChannelTable.entryAt, he, hrun₂, hrun₃, u, ChannelTable.placeNews,
      ChannelTable.withMembers]
  · rw [ht.index, hu.presences]
  · rw [← hvac, hu.deviceOf]
  · rw [hdevice, hu.deviceOf]
  · rw [hentry, hu.entryOf]
  · rw [← hu.presences, ← ht.size]
    exact Pool.size_of_view_eq hpair

theorem shortened (h : Hearing t chains order) {u : ChannelTable}
    {chains' : Nat → Chain Presence.byDevice} {m : Nat} (hpool : u.presences.Sound)
    (hnumbers : u.numbers = t.numbers) (hdevice : u.deviceOf = update t.deviceOf m none)
    (hentry : u.entryOf = update t.entryOf m none)
    (hv : Woven Presence.byDevice u.presences chains'
      fun b => (picked t.deviceOf order b).filter (· != m))
    (hw : Woven Presence.byChannel u.presences u.chain
      fun b => (picked t.entryOf order b).filter (· != m)) :
    Hearing u chains' (order.filter (· != m)) := by
  constructor
  · exact hpool
  · exact h.nodup.filter _
  · intro j
    have hj := h.mem j
    by_cases hjm : j = m
    · subst hjm
      simp [hdevice]
    · simp [hdevice, hjm, hj]
  · refine hv.congr (fun _ => rfl) fun b => ?_
    rw [hdevice, picked_without]
  · refine hw.congr (fun _ => rfl) fun b => ?_
    rw [hentry, picked_without]
  · intro j k hj
    rw [hnumbers]
    by_cases hjm : j = m
    · simp [hentry, hjm] at hj
    · rw [hentry, Function.update_of_ne hjm] at hj
      exact h.entry j k hj
  · intro j l hj hl hd hk
    obtain ⟨hj, hjm⟩ := List.mem_filter.1 hj
    obtain ⟨hl, hlm⟩ := List.mem_filter.1 hl
    have hjm : j ≠ m := by simpa using hjm
    have hlm : l ≠ m := by simpa using hlm
    rw [hdevice, Function.update_of_ne hjm, Function.update_of_ne hlm] at hd
    rw [hentry, Function.update_of_ne hjm, Function.update_of_ne hlm] at hk
    exact h.once j l hj hl hd hk
  · exact hnumbers ▸ h.distinct
  · exact hnumbers ▸ h.room

end Hearing

theorem ChannelTable.Joined.picked {u : ChannelTable} {i m k : Nat} {channel : UInt8}
    (hj : t.Joined i channel m k u) (h : Hearing t chains order) :
    picked u.deviceOf (order ++ [m]) i = picked t.deviceOf order i ++ [m] := by
  have hold : ∀ j ∈ order, u.deviceOf j = t.deviceOf j := by
    intro j hmem
    rw [hj.deviceOf, Function.update_of_ne]
    rintro rfl
    simpa [hj.vacant] using (h.mem j).1 hmem
  rw [picked_append_new hold (by rw [hj.deviceOf, Function.update_self]), Function.update_self]

namespace Hearing

theorem length_picked_le (h : Hearing t chains order) (i : Nat) :
    (picked t.deviceOf order i).length ≤ Capacity.channels := by
  have hnodup : ((picked t.deviceOf order i).map t.entryOf).Nodup := by
    refine List.Nodup.map_on (fun m hm m' hm' he => ?_) (picked_nodup h.nodup)
    obtain ⟨hm, hi⟩ := mem_picked.1 hm
    obtain ⟨hm', hi'⟩ := mem_picked.1 hm'
    exact h.once m m' hm hm' (hi.trans hi'.symm) he
  have hsub : ∀ k ∈ (picked t.deviceOf order i).map t.entryOf,
      k ∈ (List.range t.numbers.length).map some := by
    intro k hk
    obtain ⟨m, hm, rfl⟩ := List.mem_map.1 hk
    obtain ⟨x, hx⟩ := h.exists_presence (mem_picked.1 hm).1
    have hentry : t.entryOf m = some x.entry := by simp [ChannelTable.entryOf, hx]
    simpa [hentry] using h.entry m x.entry hentry
  have hle := hnodup.length_le_of_subset hsub
  simp only [List.length_map, List.length_range] at hle
  exact Nat.le_trans hle h.room

theorem leaveOne (h : Hearing t chains order) {i m : Nat} {s : List Nat}
    (hs : picked t.deviceOf order i = m :: s) :
    ∃ d q u, (chains i).popFront? t.presences = .ok (some (m, d, q)) ∧
      { t with presences := q }.endPresence m = .ok u ∧
      Hearing u (update chains i d) (order.filter (· != m)) ∧ u.numbers = t.numbers ∧
      u.deviceOf = update t.deviceOf m none ∧ u.entryOf = update t.entryOf m none ∧
      u.presences.size = t.presences.size - 1 := by
  have hm : m ∈ order ∧ t.deviceOf m = some i := mem_picked.1 (by simp [hs])
  obtain ⟨hnil, -⟩ | ⟨m', s', d, q, hcons, hpop, hv, hpool⟩ := h.onDevice.popFront? i
  · simp [hs] at hnil
  obtain ⟨rfl, rfl⟩ := List.cons.inj (hs.symm.trans hcons)
  have hpair := hpool.view_eq (fun x => (x.device, x.entry)) fun _ _ => rfl
  obtain ⟨x, hx⟩ := h.exists_presence hm.1
  obtain ⟨e, he⟩ := h.exists_entry hx
  obtain ⟨y, hy, hyx⟩ := Pool.exists_of_view_eq hpair.symm hx
  have hyentry : y.entry = x.entry := congrArg Prod.snd hyx
  have hw := h.onChannel.transport (q := q)
    (Pool.at?_map_of_view_eq (hpool.view_eq Presence.onChannel fun _ _ => rfl))
  have hmk : m ∈ picked t.entryOf order x.entry :=
    mem_picked.2 ⟨hm.1, by simp [ChannelTable.entryOf, hx]⟩
  obtain ⟨d₂, p₂, hrun₂, hw₂, hpool₂⟩ := hw.remove hmk
  have hchain : t.chain x.entry = e.members := by simp [ChannelTable.chain, he]
  rw [hchain] at hrun₂
  have hv₂ := hv.transport
    (Pool.at?_map_of_view_eq (hpool₂.view_eq Presence.onDevice fun _ _ => rfl))
  have hpair₂ := (hpool₂.view_eq (fun x => (x.device, x.entry)) fun _ _ => rfl).trans hpair
  let u := t.withMembers x.entry e (d₂, p₂.release m)
  have hnumbers : u.numbers = t.numbers := ChannelTable.numbers_withMembers he d₂
  have hdevice : u.deviceOf = update t.deviceOf m none := by
    have hsame : (fun j => (p₂.at? j).map Presence.device) = t.deviceOf :=
      funext (Pool.at?_map_of_view_eq (Pool.view_eq_comp hpair₂ Prod.fst))
    rw [← hsame]
    exact p₂.read_release m (Option.map Presence.device)
  have hentry : u.entryOf = update t.entryOf m none := by
    have hsame : (fun j => (p₂.at? j).map Presence.entry) = t.entryOf :=
      funext (Pool.at?_map_of_view_eq (Pool.view_eq_comp hpair₂ Prod.snd))
    rw [← hsame]
    exact p₂.read_release m (Option.map Presence.entry)
  refine ⟨d, q, u, hpop, ?_,
    h.shortened ((h.pool.of_view_eq hpair₂).release m) hnumbers hdevice hentry
      (hv₂.released fun b => by simp)
      ((hw₂.released fun b => by simp).congr
        (ChannelTable.chain_withMembers (Array.getElem?_eq_some_iff.1 he).1 d₂) fun _ => rfl),
    hnumbers, hdevice, hentry, ?_⟩
  · simp [ChannelTable.endPresence, Pool.item_of_at? hy, hyentry, ChannelTable.entryAt, he, hrun₂, u,
      ChannelTable.withMembers, bind, Except.bind, pure, Except.pure]
  · have hsize : p₂.size = t.presences.size := Pool.size_of_view_eq hpair₂
    obtain ⟨z, hz, -⟩ := Pool.exists_of_view_eq hpair₂.symm hx
    rw [← hsize]
    exact Pool.size_release hz

/-- `u` is `t` without the presences of the device in slot `i`. -/
structure Left (t : ChannelTable) (i : Nat) (u : ChannelTable) : Prop where
  numbers : u.numbers = t.numbers
  deviceOf : ∀ m, u.deviceOf m = if t.deviceOf m = some i then none else t.deviceOf m
  entryOf : ∀ m, u.entryOf m = if t.deviceOf m = some i then none else t.entryOf m

theorem leaveUpTo_nil (h : Hearing t chains order) {i : Nat} (hs : picked t.deviceOf order i = [])
    (fuel : Nat) :
    ∃ u, ChannelTable.leaveUpTo fuel t (chains i) = .ok (u, .empty) ∧
      Hearing u (update chains i .empty) (order.filter fun m => t.deviceOf m != some i) ∧
      Left t i u ∧ u.presences.size + (picked t.deviceOf order i).length = t.presences.size := by
  have hspells := h.onDevice.spells i
  rw [hs] at hspells
  have hempty := hspells.eq_empty
  have hother : ∀ m, t.deviceOf m ≠ some i := fun m hm => by
    have hmem : m ∈ picked t.deviceOf order i := mem_picked.2 ⟨(h.mem m).2 (by simp [hm]), hm⟩
    simp [hs] at hmem
  refine ⟨t, ?_, ?_, ⟨rfl, fun m => by simp [hother m], fun m => by simp [hother m]⟩, by simp [hs]⟩
  · rw [hempty, ChannelTable.leaveUpTo.eq_def]
    rfl
  · rw [← hempty, Function.update_eq_self, List.filter_eq_self.2]
    · exact h
    · simpa using fun m _ => hother m

theorem leaveUpTo_run (i fuel : Nat) : ∀ {t : ChannelTable} {chains : Nat → Chain Presence.byDevice}
    {order : List Nat}, Hearing t chains order → (picked t.deviceOf order i).length ≤ fuel →
    ∃ u, ChannelTable.leaveUpTo fuel t (chains i) = .ok (u, .empty) ∧
      Hearing u (update chains i .empty) (order.filter fun m => t.deviceOf m != some i) ∧
      Left t i u ∧
      u.presences.size + (picked t.deviceOf order i).length = t.presences.size := by
  induction fuel with
  | zero =>
    intro t chains order h hfuel
    exact leaveUpTo_nil h (List.eq_nil_of_length_eq_zero (Nat.le_zero.1 hfuel)) 0
  | succ fuel ih =>
    intro t chains order h hfuel
    cases hs : picked t.deviceOf order i with
    | nil => exact hs ▸ leaveUpTo_nil h hs (fuel + 1)
    | cons m s =>
      have hm : m ∈ order ∧ t.deviceOf m = some i := mem_picked.1 (by simp [hs])
      obtain ⟨d, q, t₁, hpop, hend, h₁, hnumbers, hdevice, hentry, hsize⟩ := h.leaveOne hs
      have hpicked : picked t₁.deviceOf (order.filter (· != m)) i = s := by
        have hnodup : (m :: s).Nodup := hs ▸ picked_nodup h.nodup
        rw [hdevice, picked_without, hs]
        simpa using fun j hj => fun e : j = m => (List.nodup_cons.1 hnodup).1 (e ▸ hj)
      have hlength : s.length ≤ fuel := by
        rw [hs, List.length_cons] at hfuel
        omega
      have hpos : 0 < t.presences.size := by
        refine Nat.lt_of_lt_of_le ?_ (h.pool.length_le_size h.nodup fun j hj => ?_)
        · exact List.length_pos_of_mem hm.1
        · simpa [ChannelTable.deviceOf] using (h.mem j).1 hj
      obtain ⟨u, hrun, hu, hleft, hsizes⟩ := ih h₁ (hpicked ▸ hlength)
      rw [Function.update_self] at hrun
      refine ⟨u, ?_, ?_, ⟨hleft.numbers.trans hnumbers, fun j => ?_, fun j => ?_⟩, ?_⟩
      · rw [ChannelTable.leaveUpTo, hpop]
        simpa [bind, Except.bind, hend] using hrun
      · have horder : ((order.filter (· != m)).filter fun j => t₁.deviceOf j != some i) =
            order.filter fun j => t.deviceOf j != some i := by
          rw [List.filter_filter]
          refine List.filter_congr fun j _ => ?_
          by_cases hj : j = m <;> simp [hdevice, hj, hm.2]
        rw [← horder]
        simpa using hu
      · rw [hleft.deviceOf, hdevice]
        by_cases hj : j = m <;> simp [hj, hm.2]
      · rw [hleft.entryOf, hdevice, hentry]
        by_cases hj : j = m <;> simp [hj, hm.2]
      · rw [hpicked] at hsizes
        simp only [List.length_cons]
        omega

theorem leaveAll_run (h : Hearing t chains order) (i : Nat) :
    ∃ u, t.leaveAll (chains i) = .ok (u, .empty) ∧
      Hearing u (update chains i .empty) (order.filter fun m => t.deviceOf m != some i) ∧
      Left t i u ∧
      u.presences.size + (picked t.deviceOf order i).length = t.presences.size := by
  refine leaveUpTo_run i _ h (h.pool.length_le_size (picked_nodup h.nodup) fun m hm => ?_)
  simpa [ChannelTable.deviceOf] using (h.mem m).1 (mem_picked.1 hm).1

theorem clear (h : Hearing t chains order) : Hearing t.clear (fun _ => .empty) [] := by
  have hvacant : ∀ m, t.clear.presences.at? m = none := Pool.at?_clear t.presences
  refine ⟨h.pool.clear, List.nodup_nil, ?_, woven_vacant hvacant,
    (woven_vacant hvacant).congr ?_ ?_, ?_, ?_, List.nodup_nil, Nat.zero_le _⟩ <;>
    simp [ChannelTable.clear, ChannelTable.deviceOf, ChannelTable.entryOf, ChannelTable.chain, picked,
      Pool.at?_clear]

end Hearing

end AirSurvey
