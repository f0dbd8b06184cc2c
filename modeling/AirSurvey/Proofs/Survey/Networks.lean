import AirSurvey.Proofs.Action
import AirSurvey.Proofs.Survey.Order

set_option autoImplicit false

/-!
Networks and their members: what finding, making, joining and leaving a network does to the groups.
-/

namespace AirSurvey

open Chain (Woven Relinked)
open Function (update)

def Network.marked (isSplit : Bool) (n : Network) : Network := { n with isSplit }

def Network.core (n : Network) : NetworkName × Bool := (n.name, n.isSplit)

namespace NetworkTable

variable {t t' : NetworkTable}

theorem chain_of_get? {h : Handle} {n : Network} (hn : t.get? h = some n) :
    t.chain h.index = n.members := by
  simp [chain, Pool.at?_of_get? hn]

theorem chain_of_view_eq (h : t'.pool.view Network.members = t.pool.view Network.members) (g : Nat) :
    t'.chain g = t.chain g := by
  simp only [chain, Pool.at?_map_of_view_eq h g]

theorem chain_modifyAt {g : Nat} (hg : (t.pool.at? g).isSome) (d : Chain Device.byNetwork)
    (b : Nat) :
    (⟨t.pool.modifyAt g fun n => { n with members := d }⟩ : NetworkTable).chain b =
      update t.chain g d b := by
  obtain ⟨n, hn⟩ := Option.isSome_iff_exists.1 hg
  exact congrFun (Pool.read_modifyAt hn _ fun o => (o.map Network.members).getD .empty) b

theorem exists_of_names (hv : t'.pool.view Network.name = t.pool.view Network.name) {h : Handle}
    {n : Network} (hn : t.get? h = some n) : ∃ m, t'.get? h = some m ∧ m.name = n.name := by
  have hget : (t'.get? h).map Network.name = (t.get? h).map Network.name := by
    rw [get?, get?, ← Pool.get?_view, hv, Pool.get?_view]
  rw [hn, Option.map_some, Option.map_eq_some_iff] at hget
  exact hget

/-- Ad-hoc devices among those in some slots are in different cells. -/
def splitAmong (p : DevicePool) (slots : List Nat) : Bool :=
  differ (adHocCells (slots.filterMap p.at?))

theorem splitAmong_of_view {p q : DevicePool}
    (hv : q.view Device.profile = p.view Device.profile) (slots : List Nat) :
    splitAmong q slots = splitAmong p slots := by
  have hcells : ∀ r : DevicePool, adHocCells (slots.filterMap r.at?) = slots.filterMap fun i =>
      ((r.at? i).map Device.profile).bind fun x => if x.mode = some .adHoc then x.bssid else none := by
    intro r
    simp only [adHocCells, List.filterMap_filterMap, Option.bind_map, Function.comp_def]
  simp only [splitAmong, hcells, Pool.at?_map_of_view_eq hv]

def entryNews (t : NetworkTable) (name : String) : List Event :=
  if (t.find? name).isSome then [] else [.newNetwork name]

def splitNews (t : NetworkTable) (h : Handle) (isSplit : Bool) : List Event :=
  (((t.get? h).map Network.core).filter fun n => isSplit && !n.2).toList.map fun n => .split n.1.text

theorem view_marked (hv : t'.pool.view Network.core = t.pool.view Network.core) (a : Nat)
    (isSplit : Bool) :
    (t'.pool.modifyAt a (.marked isSplit)).view Network.core =
      (t.pool.modifyAt a (.marked isSplit)).view Network.core := by
  rw [Pool.view_modifyAt Network.core _ _ _ (fun n => (n.1, isSplit)) fun _ => rfl,
    Pool.view_modifyAt Network.core _ _ _ (fun n => (n.1, isSplit)) fun _ => rfl, hv]

theorem splitNews_of_view (hv : t'.pool.view Network.core = t.pool.view Network.core) (h : Handle)
    (isSplit : Bool) : t'.splitNews h isSplit = t.splitNews h isSplit := by
  rw [splitNews, splitNews, get?, get?, ← Pool.get?_view, hv, Pool.get?_view]

theorem refreshSplit_run {h : Handle} {n : Network} {p : DevicePool} {s : List Nat}
    (hn : t.get? h = some n) (hs : n.members.Spells p s) :
    (refreshSplit h p).run t = .ok
      ⟨⟨t.pool.modifyAt h.index (.marked (splitAmong p s))⟩,
        t.splitNews h (splitAmong p s), .ok ()⟩ := by
  have hitems : n.members.items p = .ok (s.filterMap p.at?) := hs.items
  have hget : t.pool.get? h = some n := hn
  simp only [refreshSplit, Action.run_read_bind, hn, hitems, Action.lift_eq_attempt,
    Action.run_attempt_ok_bind, Pool.modify_of_get? hget, splitAmong, splitNews, Option.map_some,
    Network.core, Option.filter_some]
  split <;> simp <;> rfl

/-! ## Names -/

def Distinct (t : NetworkTable) : Prop :=
  ∀ g g' n n', t.pool.at? g = some n → t.pool.at? g' = some n' → n.name.text = n'.name.text → g = g'

namespace Distinct

variable (hd : t.Distinct)
include hd

theorem find?_eq_some_iff (name : String) (h : Handle) :
    t.find? name = some h ↔ ∃ n, t.get? h = some n ∧ n.name.text = name := by
  simp only [find?, Option.map_eq_some_iff, Prod.exists, exists_and_right, exists_eq_right, get?]
  constructor
  · intro hgiven
    rcases hgiven with ⟨n, hn⟩
    have hname : n.name.text = name := by simpa using List.find?_some hn
    exact ⟨n, (Pool.mem_entries _ _ _).1 (List.mem_of_find?_eq_some hn), hname⟩
  · intro hgiven
    rcases hgiven with ⟨n, hn, hname⟩
    have hmem := (Pool.mem_entries _ _ _).2 hn
    cases hfind : t.pool.entries.find? fun e => e.2.name.text == name with
    | none => simpa [hname] using List.find?_eq_none.1 hfind _ hmem
    | some e =>
      obtain ⟨k, m⟩ := e
      have hm : m.name.text = name := by simpa using List.find?_some hfind
      have hk := (Pool.mem_entries _ _ _).1 (List.mem_of_find?_eq_some hfind)
      have hindex := hd _ _ _ _ (Pool.at?_of_get? hk) (Pool.at?_of_get? hn) (hm.trans hname.symm)
      have hk' := ((Pool.get?_eq_some_iff _ _ _).1 hk).1
      have hn' := ((Pool.get?_eq_some_iff _ _ _).1 hn).1
      rw [hindex, hn'] at hk'
      cases hk'
      exact ⟨m, rfl⟩

theorem of_names (hnames : t'.pool.view Network.name = t.pool.view Network.name) :
    t'.Distinct := by
  intro i i' n n' hn hn' hname
  obtain ⟨m, hm, hmn⟩ := Pool.exists_of_view_eq hnames hn
  obtain ⟨m', hm', hmn'⟩ := Pool.exists_of_view_eq hnames hn'
  exact hd i i' m m' hm hm' (by rw [hmn, hmn', hname])

theorem made {name : NetworkName} {h : Handle} {r : Pool Network Capacity.networks}
    (hnew : t.find? name.text = none)
    (ht : t.pool.Taken (fun _ => ⟨name, .empty, false⟩) h r) : Distinct ⟨r⟩ := by
  have hother : ∀ j m, t.pool.at? j = some m → m.name.text ≠ name.text := by
    intro j m hm hname
    obtain ⟨k, hk⟩ := Option.isSome_iff_exists.1
      ((Pool.handleAt?_isSome t.pool j).trans (by simp [hm]))
    have hj := Pool.index_of_handleAt? hk
    subst hj
    have hfind := (hd.find?_eq_some_iff name.text k).2
      ⟨m, (Pool.get?_eq_some_iff _ _ _).2 ⟨hk, hm⟩, hname⟩
    simp [hnew] at hfind
  intro i i' n n' hn hn' hname
  rw [ht.at?] at hn hn'
  split at hn <;> split at hn'
  · next h₁ h₂ => exact h₁.symm.trans h₂
  · cases hn
    exact absurd hname.symm (hother i' n' hn')
  · cases hn'
    exact absurd hname (hother i n hn)
  · exact hd i i' n n' hn hn' hname

theorem purge : t.purge.2.Distinct := by
  intro i i' n n' hn hn'
  simp only [NetworkTable.purge, Pool.at?_foldl_release, ite_eq_iff, reduceCtorEq, and_false,
    false_or] at hn hn'
  exact hd i i' n n' hn.2 hn'.2

end Distinct

/-! ## Making networks -/

theorem enter_known {name : String} {h : Handle} (hfind : t.find? name = some h) :
    (enter name).run t = .ok ⟨t, [], .ok h⟩ := by simp [enter, hfind]

theorem enter_made {name : NetworkName} {h : Handle} {r : Pool Network Capacity.networks}
    (hfind : t.find? name.text = none)
    (ht : t.pool.Taken (fun _ => ⟨name, .empty, false⟩) h r) :
    (enter name.text).run t = .ok ⟨⟨r⟩, [.newNetwork name.text], .ok h⟩ := by
  simp [enter, hfind, NetworkName.ofText?_text, ht.inserted]

/-- Entering a name finds or makes its network, or there is no room for another. -/
theorem enter_name_run (t : NetworkTable) (name : NetworkName) :
    ∃ o, (enter name.text).run t = .ok o ∧
      ((∃ h, o.answer = .ok h) ∨ o.answer = .error (.full .networks)) := by
  cases hfind : t.find? name.text with
  | some h => exact ⟨_, enter_known hfind, .inl ⟨h, rfl⟩⟩
  | none =>
    cases hinsert : t.pool.insert? fun _ => ⟨name, .empty, false⟩ with
    | none =>
      refine ⟨⟨t, [.networkTableFull name.text], .error (.full .networks)⟩, ?_, .inr rfl⟩
      simp [enter, hfind, NetworkName.ofText?_text, hinsert]
    | some made =>
      obtain ⟨h, pool⟩ := made
      refine ⟨⟨⟨pool⟩, [.newNetwork name.text], .ok h⟩, ?_, .inl ⟨h, rfl⟩⟩
      simp [enter, hfind, NetworkName.ofText?_text, hinsert]

/-- `u` is `t` with a network of a name at the handle `h`: one that was there, or a new one. -/
inductive Entered (t : NetworkTable) (name : NetworkName) (h : Handle) : NetworkTable → Prop
  | known (hfind : t.find? name.text = some h) : Entered t name h t
  | made {r : Pool Network Capacity.networks} (hfind : t.find? name.text = none)
      (ht : t.pool.Taken (fun _ => ⟨name, .empty, false⟩) h r) : Entered t name h ⟨r⟩

theorem Entered.get?_of_get? {name : NetworkName} {h k : Handle} {n : Network}
    (he : t.Entered name h t') (hn : t.get? k = some n) : t'.get? k = some n := by
  cases he with
  | known => exact hn
  | made hfind ht =>
    obtain ⟨hk, hat⟩ := (Pool.get?_eq_some_iff _ _ _).1 hn
    have hne : h.index ≠ k.index := fun e => by simp [← e, ht.vacant] at hat
    refine (Pool.get?_eq_some_iff _ _ _).2 ⟨?_, ?_⟩
    · rw [ht.handleAt?, if_neg hne, hk]
    · rw [ht.at?, if_neg hne, hat]

theorem Entered.splitNews {name : NetworkName} {h k : Handle} {n : Network}
    (he : t.Entered name h t') (hn : t.get? k = some n) (isSplit : Bool) :
    t'.splitNews k isSplit = t.splitNews k isSplit := by
  rw [NetworkTable.splitNews, he.get?_of_get? hn, NetworkTable.splitNews, hn]

def departed (t : NetworkTable) (isSplit : Handle → Bool) : Option Handle → NetworkTable
  | none => t
  | some old => ⟨t.pool.modifyAt old.index (.marked (isSplit old))⟩

theorem departed_names (t : NetworkTable) (isSplit : Handle → Bool) (current : Option Handle) :
    (t.departed isSplit current).pool.view Network.name = t.pool.view Network.name := by
  cases current with
  | none => rfl
  | some old => exact Pool.view_modifyAt_of_eq _ _ _ _ fun _ => rfl

theorem index_mem_emptyOnes {t : NetworkTable} {k : Handle} {n : Network}
    (hn : t.get? k = some n) :
    k.index ∈ t.emptyOnes.map Handle.index ↔ n.isEmpty = true := by
  have hk := ((Pool.get?_eq_some_iff _ _ _).1 hn).1
  simp only [emptyOnes, List.mem_map, List.mem_filter, Prod.exists, Pool.mem_entries,
    exists_and_right, exists_eq_right]
  constructor
  · intro hgiven
    obtain ⟨j, ⟨m, hm, hempty⟩, hindex⟩ := hgiven
    have hj := ((Pool.get?_eq_some_iff _ _ _).1 hm).1
    rw [hindex, hk] at hj
    obtain rfl := Option.some.inj hj
    obtain rfl := Option.some.inj (hm.symm.trans hn)
    exact hempty
  · intro hempty
    exact ⟨k, ⟨n, hn, hempty⟩, rfl⟩

theorem get?_purge (t : NetworkTable) (h : Handle) :
    t.purge.2.get? h = (t.get? h).filter fun n => !n.isEmpty := by
  have hget : t.purge.2.get? h =
      if h.index ∈ t.emptyOnes.map Handle.index then none else t.get? h := by
    rw [get?, purge, Pool.get?_eq, Pool.handleAt?_foldl_release, Pool.at?_foldl_release]
    split
    · simp
    · rw [← Pool.get?_eq, get?]
  rw [hget]
  cases hn : t.get? h with
  | none => rw [ite_self, Option.filter_none]
  | some n => cases hn' : n.isEmpty <;> simp [index_mem_emptyOnes hn, hn', Option.filter_some]

end NetworkTable

namespace Grouping

variable {p q : DevicePool} {t t' : NetworkTable} {key key' : Nat → Option Nat}
  {order order' : List Nat}

/-- The names stay, the members are what the new chains spell. -/
theorem rewoven (g : Grouping p t key order)
    (hnames : t'.pool.view Network.name = t.pool.view Network.name)
    (hwoven : Woven Device.byNetwork q t'.chain (picked key' order')) (hnodup : order'.Nodup)
    (hmem : ∀ i, i ∈ order' ↔ (key' i).isSome) : Grouping q t' key' order' where
  pool := g.pool.of_view_eq hnames
  woven := hwoven
  nodup := hnodup
  mem := hmem
  distinct := NetworkTable.Distinct.of_names g.distinct hnames
  visible i n hn := by
    obtain ⟨m, hm, hmn⟩ := Pool.exists_of_view_eq hnames hn
    rw [← hmn]
    exact g.visible i m hm

theorem of_links (g : Grouping p t key order)
    (hlinks : ∀ i, (q.at? i).map Device.inNetwork = (p.at? i).map Device.inNetwork) :
    Grouping q t key order :=
  g.rewoven rfl (g.woven.transport hlinks) g.nodup g.mem

theorem congr_key (g : Grouping p t key order) (hkey : ∀ i, key' i = key i) :
    Grouping p t key' order := by
  obtain rfl := funext hkey
  exact g

theorem spells (g : Grouping p t key order) {h : Handle} {n : Network} (hn : t.get? h = some n) :
    n.members.Spells p (picked key order h.index) := by
  rw [← NetworkTable.chain_of_get? hn]
  exact g.woven.spells h.index

theorem picked_vacant (g : Grouping p t key order) {a : Nat} (ha : t.pool.at? a = none) :
    picked key order a = [] := by
  have hspells := g.woven.spells a
  rw [show t.chain a = .empty by simp [NetworkTable.chain, ha]] at hspells
  exact hspells.unique (Chain.empty_spells p)

theorem isSome_of_key (g : Grouping p t key order) {i a : Nat} (hi : key i = some a) :
    (t.pool.at? a).isSome := by
  cases ha : t.pool.at? a with
  | some n => rfl
  | none =>
    have hmem : i ∈ picked key order a := mem_picked.2 ⟨(g.mem i).2 (by simp [hi]), hi⟩
    simp [g.picked_vacant ha] at hmem

theorem exists_get? (g : Grouping p t key order) {i : Nat} {h : Handle}
    (hi : key i = some h.index) (hh : t.pool.handleAt? h.index = some h) :
    ∃ n, t.get? h = some n := by
  obtain ⟨n, hn⟩ := Option.isSome_iff_exists.1 (g.isSome_of_key hi)
  exact ⟨n, (Pool.get?_eq_some_iff _ _ _).2 ⟨hh, hn⟩⟩

theorem without (g : Grouping p t key order) {i : Nat} (hi : key i = none) :
    Grouping p t (update key i none) (order.filter (· != i)) := by
  have hnot : ∀ j ∈ order, j ≠ i := by
    rintro j hj rfl
    simpa [hi] using (g.mem j).1 hj
  rw [← hi, Function.update_eq_self, List.filter_eq_self.2]
  · exact g
  · simpa using hnot

theorem leave (g : Grouping p t key order) {i : Nat} {h : Handle} {n : Network}
    (hn : t.get? h = some n) (hi : key i = some h.index) :
    ∃ d q, n.members.remove p i = .ok (d, q) ∧
        q.view Device.byNetwork.bare = p.view Device.byNetwork.bare ∧
      Grouping q ⟨t.pool.modifyAt h.index fun n => { n with members := d }⟩ (update key i none)
        (order.filter (· != i)) := by
  have hmem : i ∈ picked key order h.index := mem_picked.2 ⟨(g.mem i).2 (by simp [hi]), hi⟩
  obtain ⟨d, q, hrun, hw, hpool⟩ := g.woven.remove hmem
  rw [NetworkTable.chain_of_get? hn] at hrun
  have hsome : (t.pool.at? h.index).isSome := by simp [Pool.at?_of_get? hn]
  refine ⟨d, q, hrun, hpool.view, g.rewoven (Pool.view_modifyAt_of_eq _ _ _ _ fun _ => rfl)
    (hw.congr (NetworkTable.chain_modifyAt hsome d) fun b => picked_without key order i none b)
    (g.nodup.filter _) fun j => ?_⟩
  have hj := g.mem j
  by_cases hji : j = i <;> simp [hji, hj]

theorem join (g : Grouping p t key order) {i : Nat} {h : Handle} {n : Network} {x : Device}
    (hn : t.get? h = some n) (hx : p.at? i = some x) (hi : key i = none) :
    ∃ d q, n.members.pushBack p i = .ok (d, q) ∧
        q.view Device.byNetwork.bare = p.view Device.byNetwork.bare ∧
      Grouping q ⟨t.pool.modifyAt h.index fun n => { n with members := d }⟩
        (update key i (some h.index)) (order ++ [i]) := by
  have hnot : i ∉ order := fun hmem => by simpa [hi] using (g.mem i).1 hmem
  obtain ⟨d, q, hrun, hw, hpool⟩ := g.woven.pushBack h.index hx fun b => by simp [hnot]
  rw [NetworkTable.chain_of_get? hn] at hrun
  have hsome : (t.pool.at? h.index).isSome := by simp [Pool.at?_of_get? hn]
  have hold : ∀ j ∈ order, update key i (some h.index) j = key j := fun j hj => by
    have hji : j ≠ i := fun e => hnot (e ▸ hj)
    simp [hji]
  refine ⟨d, q, hrun, hpool.view, g.rewoven (Pool.view_modifyAt_of_eq _ _ _ _ fun _ => rfl)
    (hw.congr (NetworkTable.chain_modifyAt hsome d) (picked_append_new hold (by simp))) ?_
    fun j => ?_⟩
  · simpa [List.nodup_append, g.nodup] using fun j hj => fun e : j = i => hnot (e ▸ hj)
  · have hj := g.mem j
    by_cases hji : j = i <;> simp [hji, hj]

theorem refreshed (g : Grouping p t key order) (a : Nat) (b : Bool) :
    Grouping p ⟨t.pool.modifyAt a (.marked b)⟩ key order :=
  g.rewoven (Pool.view_modifyAt_of_eq _ _ _ _ fun _ => rfl)
    (g.woven.congr (NetworkTable.chain_of_view_eq (Pool.view_modifyAt_of_eq _ _ _ _ fun _ => rfl))
      fun _ => rfl)
    g.nodup g.mem

theorem find?_eq_some_iff (g : Grouping p t key order) (name : String) (h : Handle) :
    t.find? name = some h ↔ ∃ n, t.get? h = some n ∧ n.name.text = name :=
  NetworkTable.Distinct.find?_eq_some_iff g.distinct name h

theorem entered (g : Grouping p t key order) {name : NetworkName} {h : Handle}
    {r : Pool Network Capacity.networks} (hnew : t.find? name.text = none)
    (hvisible : name.isHidden = false)
    (ht : t.pool.Taken (fun _ => ⟨name, .empty, false⟩) h r) : Grouping p ⟨r⟩ key order where
  pool := ht.sound
  woven := g.woven.congr
    (fun a => by
      simp only [NetworkTable.chain, ht.at?]
      split
      · next ha => simp [← ha, ht.vacant]
      · rfl)
    fun _ => rfl
  nodup := g.nodup
  mem := g.mem
  distinct := NetworkTable.Distinct.made g.distinct hnew ht
  visible i n hn := by
    rw [ht.at?] at hn
    split at hn
    · cases hn
      exact hvisible
    · exact g.visible i n hn

theorem enter_run (g : Grouping p t key order) {name : NetworkName}
    (hvisible : name.isHidden = false) (hroom : t.hasRoomFor name.text = true) :
    ∃ h u, (NetworkTable.enter name.text).run t = .ok ⟨u, t.entryNews name.text, .ok h⟩ ∧
      Grouping p u key order ∧ t.Entered name h u ∧ ∃ n, u.get? h = some n ∧ n.name = name := by
  cases hfind : t.find? name.text with
  | some h =>
    obtain ⟨n, hn, htext⟩ := (g.find?_eq_some_iff _ _).1 hfind
    refine ⟨h, t, ?_, g, .known hfind, n, hn, ?_⟩
    · simp [NetworkTable.enter_known hfind, NetworkTable.entryNews, hfind]
    · exact NetworkName.eq_of_text htext
  | none =>
    have hsize : t.pool.size ≠ Capacity.networks := by
      simpa [NetworkTable.hasRoomFor, hfind, Pool.isFull] using hroom
    obtain ⟨h, r, -, ht⟩ :=
      g.pool.insert?_room (fun _ => (⟨name, .empty, false⟩ : Network)) hsize
    refine ⟨h, ⟨r⟩, ?_, g.entered hfind hvisible ht, .made hfind ht, ⟨name, .empty, false⟩, ?_, rfl⟩
    · simp [NetworkTable.enter_made hfind ht, NetworkTable.entryNews, hfind]
    · refine (Pool.get?_eq_some_iff _ _ _).2 ⟨?_, ?_⟩
      · simp [ht.handleAt?]
      · simp [ht.at?]

theorem clear (g : Grouping p t key order) (hvacant : ∀ i, q.at? i = none) :
    Grouping q t.clear (fun _ => none) [] where
  pool := g.pool.clear
  woven := (woven_vacant hvacant).congr
    (fun a => by simp [NetworkTable.chain, NetworkTable.clear, Pool.at?_clear])
    fun a => by simp [picked]
  nodup := List.nodup_nil
  mem := by simp
  distinct := by simp [NetworkTable.clear, Pool.at?_clear]
  visible := by simp [NetworkTable.clear, Pool.at?_clear]

theorem mem_emptyOnes (g : Grouping p t key order) (a : Nat) :
    a ∈ t.emptyOnes.map Handle.index ↔ (t.pool.at? a).isSome ∧ picked key order a = [] := by
  have hempty : ∀ (h : Handle) (n : Network), t.get? h = some n →
      (n.isEmpty = true ↔ picked key order h.index = []) := fun h n hn => by
    simp [Network.isEmpty, (g.spells hn).isEmpty_iff]
  simp only [NetworkTable.emptyOnes, List.mem_map, List.mem_filter, Prod.exists, exists_and_right,
    exists_eq_right]
  constructor
  · intro hgiven
    rcases hgiven with ⟨h, ⟨n, hmem, hn⟩, rfl⟩
    have hget : t.get? h = some n := (Pool.mem_entries _ _ _).1 hmem
    exact ⟨by simp [Pool.at?_of_get? hget], (hempty h n hget).1 hn⟩
  · intro hgiven
    rcases hgiven with ⟨hsome, hpicked⟩
    obtain ⟨n, hn⟩ := Option.isSome_iff_exists.1 hsome
    obtain ⟨h, hh⟩ := Option.isSome_iff_exists.1 ((Pool.handleAt?_isSome t.pool a).trans hsome)
    obtain rfl := Pool.index_of_handleAt? hh
    have hget : t.get? h = some n := (Pool.get?_eq_some_iff _ _ _).2 ⟨hh, hn⟩
    exact ⟨h, ⟨n, (Pool.mem_entries _ _ _).2 hget, (hempty h n hget).2 hpicked⟩, rfl⟩

theorem purged (g : Grouping p t key order) : Grouping p t.purge.2 key order where
  pool := g.pool.foldl_release _
  woven := g.woven.congr
    (fun a => by
      simp only [NetworkTable.chain, NetworkTable.purge, Pool.at?_foldl_release]
      split
      · next ha =>
        have hspells := g.woven.spells a
        rw [((g.mem_emptyOnes a).1 ha).2] at hspells
        exact hspells.eq_empty.symm
      · rfl)
    fun _ => rfl
  nodup := g.nodup
  mem := g.mem
  distinct := NetworkTable.Distinct.purge g.distinct
  visible i n hn := by
    simp only [NetworkTable.purge, Pool.at?_foldl_release, ite_eq_iff, reduceCtorEq, and_false,
      false_or] at hn
    exact g.visible i n hn.2

end Grouping

end AirSurvey
