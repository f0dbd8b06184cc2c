import AirSurvey.Proofs.Survey.Order

set_option autoImplicit false

/-!
Devices by address and by age: taking one in and letting one go.
-/

namespace AirSurvey

open Chain (Woven)
open Function (update)

theorem AddressIndex.mem_pairs_iff {x : AddressIndex} (h : (x.pairs.map Prod.fst).Nodup)
    (m : MacAddress) (i : Nat) : (m, i) ∈ x.pairs ↔ x.find? m = some i := by
  rw [find?, List.lookup_eq_some_iff]
  constructor
  · intro hmem
    obtain ⟨l, r, hlr⟩ := List.append_of_mem hmem
    refine ⟨l, r, hlr, fun e he => ?_⟩
    rw [hlr, List.map_append, List.map_cons, List.nodup_middle, List.nodup_cons] at h
    have hne : m ≠ e.1 := fun hm =>
      h.1 (List.mem_append_left _ (List.mem_map.2 ⟨e, he, hm.symm⟩))
    simpa using hne
  · intro hgiven
    rcases hgiven with ⟨l, r, hlr, -⟩
    simp [hlr]

theorem AddressIndex.once_erase {x : AddressIndex} (h : (x.pairs.map Prod.fst).Nodup)
    (m : MacAddress) : ((x.erase m).pairs.map Prod.fst).Nodup :=
  h.sublist (List.filter_sublist.map _)

theorem AddressIndex.once_insert? {x y : AddressIndex} (h : (x.pairs.map Prod.fst).Nodup)
    {m : MacAddress} {i : Nat} (hy : x.insert? m i = some y) : (y.pairs.map Prod.fst).Nodup := by
  unfold insert? at hy
  split at hy
  · obtain rfl := Option.some.inj hy
    refine List.nodup_cons.2 ⟨?_, AddressIndex.once_erase h m⟩
    simp [erase]
  · cases hy

theorem AddressIndex.size_erase_le (x : AddressIndex) (m : MacAddress) :
    (x.erase m).size ≤ x.size := List.length_filter_le ..

def addressIn (p : DevicePool) (j : Nat) : Option MacAddress := (p.at? j).map Device.address

theorem addressIn_of_at? {p : DevicePool} {i : Nat} {d : Device} (hd : p.at? i = some d) :
    addressIn p i = some d.address := by
  rw [addressIn, hd, Option.map_some]

theorem addressIn_of_view {p q : DevicePool}
    (hv : q.view Device.address = p.view Device.address) : addressIn q = addressIn p :=
  funext fun j => Pool.at?_map_of_view_eq hv j

/-- What an index finds, when `a` tells the address in each slot. -/
def AddressIndex.Tells (x : AddressIndex) (a : Nat → Option MacAddress) : Prop :=
  ∀ m i, x.find? m = some i ↔ a i = some m

namespace AddressIndex.Tells

variable {x y : AddressIndex} {a : Nat → Option MacAddress} {m : MacAddress} {i : Nat}

theorem insert (h : x.Tells a) (hnew : x.find? m = none) (hvacant : a i = none)
    (hy : x.insert? m i = some y) : y.Tells (update a i (some m)) := by
  intro k j
  rw [AddressIndex.find?_insert? hy]
  have hk := h k j
  by_cases hj : j = i
  · subst hj
    by_cases hkm : k = m
    · simp [hkm]
    · have hmk : ¬ m = k := fun e => hkm e.symm
      simp [hkm, hmk, hk, hvacant]
  · by_cases hkm : k = m
    · subst hkm
      have hij : ¬ i = j := fun e => hj e.symm
      simpa [hj, hij, hnew] using hk
    · simp [hj, hkm, hk]

theorem erase (h : x.Tells a) (hi : a i = some m) : (x.erase m).Tells (update a i none) := by
  intro k j
  rw [AddressIndex.find?_erase]
  have hk := h k j
  by_cases hj : j = i
  · subst hj
    by_cases hkm : k = m
    · simp [hkm]
    · have hmk : ¬ m = k := fun e => hkm e.symm
      simp [hkm, hk, hi, hmk]
  · by_cases hkm : k = m
    · subst hkm
      have hm := (h k i).2 hi
      have hij : ¬ i = j := fun e => hj e.symm
      simpa [hj, hm, hij] using hk
    · simp [hj, hkm, hk]

end AddressIndex.Tells

def Device.identity (d : Device) : Handle × MacAddress := (d.id, d.address)

namespace Roster

variable {p q : DevicePool} {x : AddressIndex} {ages : Chain Device.byAge} {order : List Nat}

theorem address_inj (r : Roster p x ages order) {i j : Nat} {d e : Device} (hd : p.at? i = some d)
    (he : p.at? j = some e) (h : d.address = e.address) : i = j := by
  have hi := (r.found _ i).2 ⟨d, hd, rfl⟩
  have hj := (r.found _ j).2 ⟨e, he, rfl⟩
  rw [h, hj] at hi
  exact (Option.some.inj hi).symm

theorem get?_id (r : Roster p x ages order) {i : Nat} {d : Device} (hd : p.at? i = some d) :
    p.get? d.id = some d := by
  have hhandle := r.handle i d hd
  rw [Pool.get?_eq_some_iff, Pool.index_of_handleAt? hhandle]
  exact ⟨hhandle, hd⟩

theorem id_of_get? (r : Roster p x ages order) {k : Handle} {d : Device} (hd : p.get? k = some d) :
    d.id = k := by
  obtain ⟨hhandle, hat⟩ := (Pool.get?_eq_some_iff _ _ _).1 hd
  rw [r.handle k.index d hat] at hhandle
  exact Option.some.inj hhandle

theorem tells (r : Roster p x ages order) : x.Tells (addressIn p) := fun m i => by
  rw [r.found, addressIn, Option.map_eq_some_iff]

theorem addresses_without (r : Roster p x ages order) {i : Nat} {d : Device}
    (hd : p.at? i = some d) (l : List Nat) :
    (l.filter (· != i)).filterMap (addressIn p) =
      (l.filterMap (addressIn p)).filter (· != d.address) := by
  have hi := addressIn_of_at? hd
  rw [List.filterMap_filter, List.filter_filterMap]
  refine List.filterMap_congr fun j _ => ?_
  by_cases hj : j = i
  · simp [hj, hi, Option.filter_some]
  · cases ha : addressIn p j with
    | none => simp
    | some a =>
      have hne : a ≠ d.address := by
        rintro rfl
        have hfound := (r.tells _ _).2 ha
        rw [(r.tells _ _).2 hi] at hfound
        exact hj (Option.some.inj hfound).symm
      simp [hj, hne, Option.filter_some]

theorem size_addresses (r : Roster p x ages order) : x.size = p.size := by
  have hslots : ∀ i, i ∈ x.pairs.map Prod.snd ↔ (p.at? i).isSome := fun i => by
    simp only [List.mem_map, Prod.exists, AddressIndex.mem_pairs_iff r.once, exists_eq_right,
      r.found, Option.isSome_iff_exists]
    exact ⟨fun ⟨_, d, hd, _⟩ => ⟨d, hd⟩, fun ⟨d, hd⟩ => ⟨d.address, d, hd, rfl⟩⟩
  have hnodup : (x.pairs.map Prod.snd).Nodup := by
    refine List.Nodup.map_on (fun a ha b hb hab => ?_) (List.Nodup.of_map Prod.fst r.once)
    obtain ⟨m, i⟩ := a
    obtain ⟨k, j⟩ := b
    obtain rfl : i = j := hab
    obtain ⟨d, hd, rfl⟩ := (r.found m i).1 ((AddressIndex.mem_pairs_iff r.once _ _).1 ha)
    obtain ⟨e, he, rfl⟩ := (r.found k i).1 ((AddressIndex.mem_pairs_iff r.once _ _).1 hb)
    rw [Option.some.inj (hd.symm.trans he)]
  rw [← r.pool.length_eq_size hnodup hslots, List.length_map]
  rfl

theorem of_identities {order' : List Nat} {ages' : Chain Device.byAge} {y : AddressIndex}
    (hpool : q.Sound) (hw : Woven Device.byAge q (fun _ : Unit => ages') (fun _ => order'))
    (hmem : ∀ j, j ∈ order' ↔ (q.at? j).isSome) (htells : y.Tells (addressIn q))
    (honce : (y.pairs.map Prod.fst).Nodup)
    (hkept : ∀ j d, q.at? j = some d → q.handleAt? j = some d.id ∧
      d.address.isZero = false ∧ d.address.isGroup = false) : Roster q y ages' order' where
  pool := hpool
  woven := hw
  mem := hmem
  found m j := by rw [htells, addressIn, Option.map_eq_some_iff]
  once := honce
  handle j d hd := (hkept j d hd).1
  single j d hd := (hkept j d hd).2

theorem exists_insert? (r : Roster p x ages order) (hroom : p.size ≠ Capacity.devices)
    (m : MacAddress) (i : Nat) : ∃ y, x.insert? m i = some y := by
  have hsum := r.pool.size_add_free
  have hb := r.pool.bounded
  have herase := x.size_erase_le m
  rw [r.size_addresses] at herase
  exact ⟨_, if_pos (by omega)⟩

/-- A device in a slot taken just now gets its address and the first place by age. -/
theorem enrolled (r : Roster p x ages order) {build : Handle → Device} {h : Handle}
    (ht : p.Taken build h q) (hid : (build h).id = h) (hloose : (build h).inAges = .loose)
    (hnew : x.find? (build h).address = none) (hroom : p.size ≠ Capacity.devices)
    (hsingle : (build h).address.isZero = false ∧ (build h).address.isGroup = false) :
    ∃ y ages' q', x.insert? (build h).address h.index = some y ∧
      ages.pushFront q h.index = .ok (ages', q') ∧
      q'.view Device.byAge.bare = q.view Device.byAge.bare ∧
      Roster q' y ages' (h.index :: order) := by
  obtain ⟨y, hy⟩ := r.exists_insert? hroom (build h).address h.index
  have hat : q.at? h.index = some (build h) := by rw [ht.at?, if_pos rfl]
  have hnot : h.index ∉ order := fun hmem => by simpa [ht.vacant] using (r.mem _).1 hmem
  obtain ⟨ages', q', hrun, hw, hpool⟩ := (r.woven.occupied ht hloose).pushFront () hat fun _ => hnot
  have hview : q'.view Device.identity = q.view Device.identity := hpool.view_eq _ fun _ _ => rfl
  have haddress : addressIn q' = update (addressIn p) h.index (some (build h).address) := by
    rw [addressIn_of_view (Pool.view_eq_comp hview Prod.snd)]
    exact ht.read (Option.map Device.address)
  refine ⟨y, ages', q', hy, hrun, hpool.view, of_identities (ht.sound.of_view_eq hview)
    (hw.congr (fun _ => by simp) fun _ => by simp) (fun j => ?_) ?_
    (AddressIndex.once_insert? r.once hy) fun j d hd => ?_⟩
  · rw [Pool.isSome_of_view_eq hview, ht.at?, List.mem_cons, r.mem]
    by_cases hj : h.index = j
    · simp [hj]
    · have hj' : ¬ j = h.index := fun e => hj e.symm
      simp [hj, hj']
  · rw [haddress]
    exact r.tells.insert hnew (by simp [addressIn, ht.vacant]) hy
  · obtain ⟨e, he, hde⟩ := Pool.exists_of_view_eq hview hd
    obtain ⟨hids, haddresses⟩ := Prod.mk.inj hde
    rw [Pool.handleAt?_of_view_eq hview, ht.handleAt?, ← hids, ← haddresses]
    rw [ht.at?] at he
    split at he
    · next hj =>
      obtain rfl := Option.some.inj he
      rw [if_pos hj, hid]
      exact ⟨rfl, hsingle⟩
    · next hj =>
      rw [if_neg hj]
      exact ⟨r.handle j e he, r.single j e he⟩

theorem released {ages' : Chain Device.byAge} {i : Nat} {d : Device} (r : Roster p x ages order)
    (hd : p.at? i = some d)
    (hw : Woven Device.byAge q (fun _ : Unit => ages') (fun _ => order.filter (· != i)))
    (hv : q.view Device.identity = p.view Device.identity) :
    Roster (q.release i) (x.erase d.address) ages' (order.filter (· != i)) := by
  have haddress : addressIn (q.release i) = update (addressIn p) i none := by
    rw [← addressIn_of_view (Pool.view_eq_comp hv Prod.snd)]
    exact q.read_release i (Option.map Device.address)
  refine of_identities ((r.pool.of_view_eq hv).release i) (hw.released fun _ => by simp)
    (fun j => ?_) ?_ (AddressIndex.once_erase r.once _) fun j e he => ?_
  · rw [Pool.at?_release, List.mem_filter, r.mem, ← Pool.isSome_of_view_eq hv]
    by_cases hj : i = j
    · simp [hj]
    · simpa [hj] using fun _ => Ne.symm hj
  · rw [haddress]
    exact r.tells.erase (addressIn_of_at? hd)
  · rw [Pool.at?_release] at he
    split at he
    · cases he
    · next hij =>
      obtain ⟨e', he', hee⟩ := Pool.exists_of_view_eq hv he
      obtain ⟨hids, haddresses⟩ := Prod.mk.inj hee
      rw [Pool.handleAt?_release, if_neg hij, Pool.handleAt?_of_view_eq hv, ← hids, ← haddresses]
      exact ⟨r.handle j e' he', r.single j e' he'⟩

end Roster

end AirSurvey
