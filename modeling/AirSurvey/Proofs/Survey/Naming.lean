import AirSurvey.Proofs.Survey.Membership
import Mathlib.Data.Finset.Card

set_option autoImplicit false

/-!
Networks told by their names: which there are and which of them have split. A table is told by its
names whatever the slots are that it keeps the networks in.
-/

namespace AirSurvey

namespace NetworkTable

def names (t : NetworkTable) : Finset NetworkName :=
  (t.pool.entries.map fun e => e.2.name).toFinset

def splitNames (t : NetworkTable) : Finset NetworkName :=
  ((t.pool.entries.filter fun e => e.2.isSplit).map fun e => e.2.name).toFinset

/-- The networks that have split once one of them was looked at anew. -/
def regard (split : Finset NetworkName) (isSplit : NetworkName → Bool) :
    Option NetworkName → Finset NetworkName
  | none => split
  | some name => if isSplit name then insert name split else split.erase name

def regardNews (split : Finset NetworkName) (isSplit : NetworkName → Bool) :
    Option NetworkName → List Event
  | none => []
  | some name => if isSplit name ∧ name ∉ split then [.split name.text] else []

variable {t u : NetworkTable} {name : NetworkName}

theorem mem_names : name ∈ t.names ↔ ∃ h, (t.get? h).map Network.name = some name := by
  simp only [names, List.mem_toFinset, List.mem_map, Prod.exists, Pool.mem_entries,
    Option.map_eq_some_iff]
  rfl

theorem mem_splitNames :
    name ∈ t.splitNames ↔ ∃ h, (t.get? h).map Network.core = some (name, true) := by
  simp only [splitNames, List.mem_toFinset, List.mem_map, List.mem_filter, Prod.exists,
    Pool.mem_entries, Option.map_eq_some_iff, Network.core, Prod.mk.injEq]
  refine exists_congr fun h => exists_congr fun n => ?_
  rw [and_assoc, and_comm (a := n.isSplit = true)]
  rfl

theorem map_core_get? (hv : u.pool.view Network.core = t.pool.view Network.core) (h : Handle) :
    (u.get? h).map Network.core = (t.get? h).map Network.core := by
  rw [get?, get?, ← Pool.get?_view, hv, Pool.get?_view]

theorem names_of_view (hv : u.pool.view Network.name = t.pool.view Network.name) :
    u.names = t.names := by
  ext name
  simp only [mem_names, map_name_get? hv]

theorem splitNames_of_view (hv : u.pool.view Network.core = t.pool.view Network.core) :
    u.splitNames = t.splitNames := by
  ext name
  simp only [mem_splitNames, map_core_get? hv]

end NetworkTable

namespace Grouping

variable {p : DevicePool} {t : NetworkTable} {key : Nat → Option Nat} {order : List Nat}

theorem names_nodup (g : Grouping p t key order) :
    (t.pool.entries.map fun e => e.2.name).Nodup := by
  have hnodup := t.pool.entries_nodup
  rw [List.nodup_iff_pairwise_ne, List.pairwise_map] at hnodup ⊢
  refine hnodup.imp_of_mem fun {e e'} he he' hne hname => hne ?_
  rw [g.handle_inj ((Pool.mem_entries _ _ _).1 he) ((Pool.mem_entries _ _ _).1 he')
    (congrArg NetworkName.text hname)]

theorem find?_isSome_iff (g : Grouping p t key order) (name : NetworkName) :
    (t.find? name.text).isSome = true ↔ name ∈ t.names := by
  rw [Option.isSome_iff_exists, NetworkTable.mem_names]
  refine exists_congr fun h => ?_
  rw [g.find?_eq_some_iff, Option.map_eq_some_iff]
  exact exists_congr fun n => and_congr_right fun _ =>
    ⟨NetworkName.eq_of_text, congrArg NetworkName.text⟩

theorem entryNews_eq (g : Grouping p t key order) (name : NetworkName) :
    t.entryNews name.text = if name ∈ t.names then [] else [.newNetwork name.text] := by
  simp only [NetworkTable.entryNews, g.find?_isSome_iff]

theorem names_entered (g : Grouping p t key order) {u : NetworkTable} {name : NetworkName}
    {h : Handle} (he : t.Entered name h u) :
    u.names = insert name t.names ∧ u.splitNames = t.splitNames := by
  cases he with
  | known hfind =>
    have hmem := (g.find?_isSome_iff name).1 (by rw [hfind]; rfl)
    exact ⟨(Finset.insert_eq_of_mem hmem).symm, rfl⟩
  | @made r _ ht =>
    have hget : ∀ k, NetworkTable.get? ⟨r⟩ k =
        if h = k then some ⟨name, .empty, false⟩ else t.get? k := ht.get?
    have hold : t.get? h = none := by
      rw [NetworkTable.get?, Pool.get?_eq, ht.vacant, ite_self]
    constructor
    · ext other
      rw [Finset.mem_insert, NetworkTable.mem_names, NetworkTable.mem_names]
      constructor
      · rintro ⟨k, hk⟩
        rw [hget] at hk
        split at hk
        · exact .inl (Option.some.inj hk).symm
        · exact .inr ⟨k, hk⟩
      · rintro (rfl | ⟨k, hk⟩)
        · exact ⟨h, by simp [hget]⟩
        · have hne : ¬ h = k := by
            rintro rfl
            simp [hold] at hk
          exact ⟨k, by rw [hget, if_neg hne, hk]⟩
    · ext other
      rw [NetworkTable.mem_splitNames, NetworkTable.mem_splitNames]
      refine exists_congr fun k => ?_
      rw [hget]
      split
      · next hk => simp [← hk, hold, Network.core]
      · rfl

theorem size_eq_card (g : Grouping p t key order) : t.pool.size = t.names.card := by
  rw [NetworkTable.names, List.toFinset_card_of_nodup g.names_nodup, List.length_map,
    g.pool.length_entries]

theorem names_purge (g : Grouping p t key order) (deserted : NetworkName → Bool)
    (hempty : ∀ h n, t.get? h = some n → n.isEmpty = deserted n.name) :
    t.purge.2.names = t.names.filter (fun name => deserted name = false) ∧
      t.purge.2.splitNames = t.splitNames.filter (fun name => deserted name = false) ∧
      t.purge.1 = (t.names.filter fun name => deserted name = true).card := by
  have hkept : ∀ {β : Type} (g : Network → β) (h : Handle) (b : β),
      (t.purge.2.get? h).map g = some b ↔
        ∃ n, t.get? h = some n ∧ deserted n.name = false ∧ g n = b := by
    intro β g h b
    simp only [NetworkTable.get?_purge, Option.map_eq_some_iff, Option.filter_eq_some_iff,
      Bool.not_eq_true']
    refine exists_congr fun n => ?_
    rw [and_assoc]
    refine and_congr_right fun hn => ?_
    rw [hempty h n hn]
  refine ⟨?_, ?_, ?_⟩
  · ext name
    simp only [Finset.mem_filter, NetworkTable.mem_names, hkept, Option.map_eq_some_iff]
    constructor
    · rintro ⟨h, n, hn, hstays, rfl⟩
      exact ⟨⟨h, n, hn, rfl⟩, hstays⟩
    · rintro ⟨⟨h, n, hn, rfl⟩, hstays⟩
      exact ⟨h, n, hn, hstays, rfl⟩
  · ext name
    simp only [Finset.mem_filter, NetworkTable.mem_splitNames, hkept, Option.map_eq_some_iff,
      Network.core, Prod.mk.injEq]
    constructor
    · rintro ⟨h, n, hn, hstays, rfl, hsplit⟩
      exact ⟨⟨h, n, hn, rfl, hsplit⟩, hstays⟩
    · rintro ⟨⟨h, n, hn, rfl, hsplit⟩, hstays⟩
      exact ⟨h, n, hn, hstays, rfl, hsplit⟩
  · have hnames : t.names.filter (fun name => deserted name = true) =
        ((t.pool.entries.filter fun e => e.2.isEmpty).map fun e => e.2.name).toFinset := by
      ext name
      simp only [Finset.mem_filter, NetworkTable.names, List.mem_toFinset, List.mem_map,
        List.mem_filter, Prod.exists, Pool.mem_entries]
      constructor
      · rintro ⟨⟨h, n, hn, rfl⟩, hgone⟩
        exact ⟨h, n, ⟨hn, (hempty h n hn).trans hgone⟩, rfl⟩
      · rintro ⟨h, n, ⟨hn, hgone⟩, rfl⟩
        exact ⟨⟨h, n, hn, rfl⟩, (hempty h n hn).symm.trans hgone⟩
    rw [hnames, List.toFinset_card_of_nodup, List.length_map]
    · simp [NetworkTable.purge, NetworkTable.emptyOnes]
    · exact g.names_nodup.sublist (List.filter_sublist.map _)

theorem mem_splitNames_iff (g : Grouping p t key order) {h : Handle} {n : Network}
    (hn : t.get? h = some n) : n.name ∈ t.splitNames ↔ n.isSplit = true := by
  rw [NetworkTable.mem_splitNames]
  constructor
  · intro hgiven
    obtain ⟨k, hk⟩ := hgiven
    obtain ⟨m, hm, hcore⟩ := Option.map_eq_some_iff.1 hk
    obtain ⟨hname, hsplit⟩ := Prod.mk.inj hcore
    obtain rfl := g.handle_inj hm hn (congrArg NetworkName.text hname)
    obtain rfl := Option.some.inj (hm.symm.trans hn)
    exact hsplit
  · intro hsplit
    exact ⟨h, by rw [hn, Option.map_some, Network.core, hsplit]⟩

theorem splitNames_marked (g : Grouping p t key order) {h : Handle} {n : Network}
    (hn : t.get? h = some n) (isSplit : Bool) :
    NetworkTable.splitNames ⟨t.pool.modifyAt h.index (.marked isSplit)⟩ =
      if isSplit then insert n.name t.splitNames else t.splitNames.erase n.name := by
  have hget : ∀ k, (NetworkTable.get? ⟨t.pool.modifyAt h.index (.marked isSplit)⟩ k).map
      Network.core = if h = k then some (n.name, isSplit) else (t.get? k).map Network.core := by
    intro k
    rw [NetworkTable.get?, Pool.get?_modifyAt_of_get? hn]
    split <;> rfl
  have hmem : ∀ name, name ∈ NetworkTable.splitNames ⟨t.pool.modifyAt h.index (.marked isSplit)⟩ ↔
      name = n.name ∧ isSplit = true ∨ name ≠ n.name ∧ name ∈ t.splitNames := by
    intro name
    simp only [NetworkTable.mem_splitNames, hget]
    constructor
    · intro hgiven
      obtain ⟨k, hk⟩ := hgiven
      split at hk
      · obtain ⟨hname, hsplit⟩ := Prod.mk.inj (Option.some.inj hk)
        exact .inl ⟨hname.symm, hsplit⟩
      · next hother =>
        obtain ⟨m, hm, hcore⟩ := Option.map_eq_some_iff.1 hk
        have hname : m.name = name := (Prod.mk.inj hcore).1
        refine .inr ⟨fun e => hother (g.handle_inj hn hm ?_), k, hk⟩
        rw [hname, e]
    · intro hgiven
      rcases hgiven with ⟨rfl, rfl⟩ | ⟨hname, k, hk⟩
      · exact ⟨h, if_pos rfl⟩
      · have hother : ¬ h = k := by
          rintro rfl
          rw [hn, Option.map_some] at hk
          exact hname (Prod.mk.inj (Option.some.inj hk)).1.symm
        exact ⟨k, (if_neg hother).trans hk⟩
  ext name
  cases isSplit <;> by_cases hname : name = n.name <;> simp [hmem, hname]

theorem regard_departed (g : Grouping p t key order) {current : Option Handle}
    {isSplit : Handle → Bool} {isSplit' : NetworkName → Bool}
    (hlive : ∀ h, current = some h → ∃ n, t.get? h = some n ∧ isSplit h = isSplit' n.name) :
    (t.departed isSplit current).splitNames =
        NetworkTable.regard t.splitNames isSplit'
          (current.bind fun h => (t.get? h).map Network.name) ∧
      current.toList.flatMap (fun h => t.splitNews h (isSplit h)) =
        NetworkTable.regardNews t.splitNames isSplit'
          (current.bind fun h => (t.get? h).map Network.name) := by
  cases current with
  | none => exact ⟨rfl, rfl⟩
  | some h =>
    obtain ⟨n, hn, hsplit⟩ := hlive h rfl
    rw [Option.bind_some, hn, Option.map_some, NetworkTable.regard, NetworkTable.regardNews,
      ← hsplit]
    refine ⟨g.splitNames_marked hn _, ?_⟩
    have hmem := g.mem_splitNames_iff hn
    rw [Option.toList_some, List.flatMap_singleton, NetworkTable.splitNews, hn, Option.map_some,
      Option.filter_some, Network.core]
    cases isSplit h <;> cases hold : n.isSplit <;> simp [hmem, hold]

end Grouping

end AirSurvey
