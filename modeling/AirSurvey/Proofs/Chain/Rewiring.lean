import AirSurvey.Proofs.Chain.Spelling

set_option autoImplicit false

/-!
Joining and leaving a chain. Each rewires the links on both sides of one place of the ring; the rest
of the ring stays, and of the entries nothing changes but links.
-/

namespace AirSurvey.Chain

variable {α : Type} {capacity : Nat} {f : LinkField α}

/-- `q` is `p` but for the links that the slots in `S` hold in one field. -/
structure Relinked (f : LinkField α) (S : Nat → Prop) (p q : Pool α capacity) : Prop where
  view : q.view f.bare = p.view f.bare
  kept : ∀ j, ¬ S j → q.at? j = p.at? j

theorem Relinked.refl (S : Nat → Prop) (p : Pool α capacity) : Relinked f S p p :=
  ⟨rfl, fun _ _ => rfl⟩

theorem Relinked.trans {S : Nat → Prop} {p q r : Pool α capacity} (h₁ : Relinked f S p q)
    (h₂ : Relinked f S q r) : Relinked f S p r :=
  ⟨h₂.view.trans h₁.view, fun j hj => (h₂.kept j hj).trans (h₁.kept j hj)⟩

theorem Relinked.mono {S T : Nat → Prop} {p q : Pool α capacity} (h : Relinked f S p q)
    (hST : ∀ j, S j → T j) : Relinked f T p q :=
  ⟨h.view, fun j hj => h.kept j fun hs => hj (hST j hs)⟩

/-- `d` and `q` are `c` and `p` with one place rewired, so that the ring reads `fd` and `bk`. -/
structure Rewired (c : Chain f) (p : Pool α capacity) (place : Position)
    (fd bk : Position → Option Position) (d : Chain f) (q : Pool α capacity) : Prop where
  length : d.length = c.length
  after : ∀ u, d.after q u = fd u
  before : ∀ u, d.before q u = bk u
  keeps : ∀ u, (c.linkOf p u).isSome → (d.linkOf q u).isSome
  pool : Relinked f (fun j => place = .entry j) p q

theorem rewired_of_linkOf {c d : Chain f} {p q : Pool α capacity} {place : Position} (l : Link)
    (hlength : d.length = c.length) (hpool : Relinked f (fun j => place = .entry j) p q)
    (hlink : ∀ u, d.linkOf q u = if u = place then some l else c.linkOf p u) :
    Rewired c p place (fun u => if u = place then some l.next else c.after p u)
      (fun u => if u = place then some l.prev else c.before p u) d q where
  length := hlength
  after u := by
    rw [Chain.after, hlink]
    split <;> rfl
  before u := by
    rw [Chain.before, hlink]
    split <;> rfl
  keeps u h := by
    rw [hlink]
    split
    · rfl
    · exact h
  pool := hpool

theorem rewired_entry (c : Chain f) {p : Pool α capacity} {i : Nat} {x : α} {l : Link}
    (hx : p.at? i = some x) (g : α → α) (hget : f.get (g x) = l)
    (hbare : ∀ y, f.bare (g y) = f.bare y) :
    Rewired c p (.entry i) (fun u => if u = .entry i then some l.next else c.after p u)
      (fun u => if u = .entry i then some l.prev else c.before p u) c (p.modifyAt i g) := by
  refine rewired_of_linkOf l rfl ⟨Pool.view_modifyAt_of_eq _ _ _ _ hbare, fun j hj => ?_⟩ fun u => ?_
  · rw [Pool.at?_modifyAt, if_neg fun e => hj (congrArg Position.entry e)]
  · cases u with
    | unlinked => rfl
    | head => rfl
    | entry j =>
      rw [Chain.linkOf, Pool.at?_modifyAt]
      by_cases hij : i = j
      · subst hij
        simp [hx, hget]
      · have hji : j ≠ i := fun e => hij e.symm
        simp [hij, hji, Chain.linkOf]

theorem rewired_head (c : Chain f) (p : Pool α capacity) (l : Link) :
    Rewired c p .head (fun u => if u = .head then some l.next else c.after p u)
      (fun u => if u = .head then some l.prev else c.before p u) { c with head := l } p := by
  refine rewired_of_linkOf l rfl (Relinked.refl _ p) fun u => ?_
  cases u <;> rfl

theorem Rewired.congr {c d : Chain f} {p q : Pool α capacity} {place : Position}
    {fd bk fd' bk' : Position → Option Position} (h : Rewired c p place fd bk d q)
    (hfd : ∀ u, fd u = fd' u) (hbk : ∀ u, bk u = bk' u) : Rewired c p place fd' bk' d q :=
  ⟨h.length, fun u => (h.after u).trans (hfd u), fun u => (h.before u).trans (hbk u), h.keeps,
    h.pool⟩

theorem setNext_rewired {c : Chain f} {p : Pool α capacity} {place : Position}
    (h : (c.linkOf p place).isSome) (target : Position) :
    ∃ d q, c.setNext p place target = .ok (d, q) ∧
      Rewired c p place (fun u => if u = place then some target else c.after p u) (c.before p)
        d q := by
  cases place with
  | unlinked => simp [linkOf] at h
  | head =>
    refine ⟨_, _, rfl, (rewired_head c p { c.head with next := target }).congr (fun _ => rfl) ?_⟩
    intro u
    split
    · next hu => simp [hu, Chain.before, linkOf]
    · rfl
  | entry i =>
    obtain ⟨x, hx⟩ : ∃ x, p.at? i = some x := by simpa [linkOf, Option.isSome_iff_exists] using h
    refine ⟨c, p.modifyAt i fun x => f.setNext x target, ?_,
      (rewired_entry c hx _ (f.get_setNext x target) fun y => f.bare_set ..).congr
        (fun _ => rfl) ?_⟩
    · simp [setNext, Pool.modifyItem_of_at? hx, bind, Except.bind, pure, Except.pure]
    · intro u
      split
      · next hu => simp [hu, Chain.before, linkOf, hx]
      · rfl

theorem setPrev_rewired {c : Chain f} {p : Pool α capacity} {place : Position}
    (h : (c.linkOf p place).isSome) (target : Position) :
    ∃ d q, c.setPrev p place target = .ok (d, q) ∧
      Rewired c p place (c.after p) (fun u => if u = place then some target else c.before p u)
        d q := by
  cases place with
  | unlinked => simp [linkOf] at h
  | head =>
    refine ⟨_, _, rfl, (rewired_head c p { c.head with prev := target }).congr ?_ (fun _ => rfl)⟩
    intro u
    split
    · next hu => simp [hu, Chain.after, linkOf]
    · rfl
  | entry i =>
    obtain ⟨x, hx⟩ : ∃ x, p.at? i = some x := by simpa [linkOf, Option.isSome_iff_exists] using h
    refine ⟨c, p.modifyAt i fun x => f.setPrev x target, ?_,
      (rewired_entry c hx _ (f.get_setPrev x target) fun y => f.bare_set ..).congr
        ?_ (fun _ => rfl)⟩
    · simp [setPrev, Pool.modifyItem_of_at? hx, bind, Except.bind, pure, Except.pure]
    · intro u
      split
      · next hu => simp [hu, Chain.after, linkOf, hx]
      · rfl

section Segment

variable {fd bk fd' bk' : Position → Option Position} {x y : Position}

/-- Where a segment is cut, the positions on both sides name each other. -/
theorem Segment.cut {l r : List Nat} (h : Segment fd bk x y (l ++ r)) :
    fd (lastOf x l) = some (firstOf r y) ∧ bk (firstOf r y) = some (lastOf x l) := by
  cases r with
  | nil =>
    rw [List.append_nil] at h
    induction l generalizing x with
    | nil => exact h
    | cons i l ih => exact ih h.2.2
  | cons i r =>
    obtain ⟨hl, hr⟩ := (segment_append l r i).1 h
    refine ⟨?_, hl.last⟩
    induction l generalizing x with
    | nil => exact hl.1
    | cons j l ih => exact ih h.2.2 hl.2.2

theorem entry_ne_lastOf {l : List Nat} {i : Nat} (h : i ∉ l) : .entry i ≠ lastOf .head l := by
  obtain he | ⟨k, hk, he⟩ := lastOf_eq .head l
  · simp [he]
  · rw [he]
    intro hgiven
    cases hgiven
    exact h hk

theorem entry_ne_firstOf {r : List Nat} {i : Nat} (h : i ∉ r) : .entry i ≠ firstOf r .head := by
  obtain he | ⟨k, hk, he⟩ := firstOf_eq r .head
  · simp [he]
  · rw [he]
    intro hgiven
    cases hgiven
    exact h hk

theorem Segment.behind {r : List Nat} {j : Nat} (h : Segment fd bk (.entry j) .head r)
    (hfd : ∀ k, k = j ∨ k ∈ r → fd' (.entry k) = fd (.entry k))
    (hbk : ∀ u, u = .head ∨ (∃ k ∈ r, u = .entry k) → bk' u = bk u) :
    Segment fd' bk' (.entry j) .head r :=
  h.transport (hfd j (.inl rfl)) (hbk .head (.inl rfl)) (fun k hk => hfd k (.inr hk))
    fun k hk => hbk (.entry k) (.inr ⟨k, hk, rfl⟩)

theorem Segment.insert {l r : List Nat} {i : Nat} (h : Segment fd bk .head .head (l ++ r))
    (hnodup : (l ++ r).Nodup) (hi : i ∉ l ++ r)
    (hfd : ∀ u, fd' u = if u = lastOf .head l then some (.entry i)
      else if u = .entry i then some (firstOf r .head) else fd u)
    (hbk : ∀ u, bk' u = if u = firstOf r .head then some (.entry i)
      else if u = .entry i then some (lastOf .head l) else bk u) :
    Segment fd' bk' .head .head (l ++ i :: r) := by
  obtain ⟨hl, hr, hlr⟩ := List.nodup_append.1 hnodup
  rw [List.mem_append, not_or] at hi
  have hmid₁ : fd' (.entry i) = some (firstOf r .head) := by simp [hfd, entry_ne_lastOf hi.1]
  have hmid₂ : bk' (.entry i) = some (lastOf .head l) := by simp [hbk, entry_ne_firstOf hi.2]
  refine (segment_append l r i).2 ⟨?_, ?_⟩
  · -- before the new entry only the last forward link changes
    have hbkl : ∀ j ∈ l, bk' (.entry j) = bk (.entry j) := by
      intro j hj
      have h₁ := entry_ne_firstOf fun hjr => hlr j hj j hjr rfl
      have h₂ : j ≠ i := fun e => hi.1 (e ▸ hj)
      simp [hbk, h₁, h₂]
    have hfdl : ∀ u, u = .head ∨ (∃ j ∈ l, u = .entry j) → u ≠ lastOf .head l → fd' u = fd u := by
      rintro u hu hne
      have h₂ : u ≠ .entry i := by
        obtain rfl | ⟨j, hj, rfl⟩ := hu
        · simp
        · intro hgiven
          cases hgiven
          exact hi.1 hj
      simp [hfd, hne, h₂]
    cases r with
    | nil =>
      rw [List.append_nil] at h
      exact h.retarget hl (by simp) hfdl hbkl (by simp [hfd]) hmid₂
    | cons j r =>
      exact ((segment_append l r j).1 h).1.retarget hl (by simp) hfdl hbkl (by simp [hfd]) hmid₂
  · -- behind it only the first backward link
    have hfirst : bk' (firstOf r .head) = some (.entry i) := by simp [hbk]
    cases r with
    | nil => exact ⟨hmid₁, hfirst⟩
    | cons j r =>
      obtain ⟨hj, hrn⟩ := List.nodup_cons.1 hr
      refine ⟨hmid₁, hfirst, ((segment_append l r j).1 h).2.behind (fun k hk => ?_) ?_⟩
      · have hkr : k ∈ j :: r := List.mem_cons.2 hk
        have h₁ := entry_ne_lastOf fun hkl => hlr k hkl k hkr rfl
        have h₂ : k ≠ i := fun e => hi.2 (e ▸ hkr)
        simp [hfd, h₁, h₂]
      · rintro u (rfl | ⟨k, hk, rfl⟩)
        · simp [hbk]
        · have h₁ : k ≠ j := fun e => hj (e ▸ hk)
          have h₂ : k ≠ i := fun e => hi.2 (by simp [← e, hk])
          simp [hbk, h₁, h₂]

theorem Segment.delete {l r : List Nat} {i : Nat} (h : Segment fd bk .head .head (l ++ i :: r))
    (hnodup : (l ++ i :: r).Nodup)
    (hfd : ∀ u, u ≠ .entry i → fd' u = if u = lastOf .head l then some (firstOf r .head) else fd u)
    (hbk : ∀ u, u ≠ .entry i → bk' u = if u = firstOf r .head then some (lastOf .head l) else bk u) :
    Segment fd' bk' .head .head (l ++ r) := by
  obtain ⟨hl, hir, hlr⟩ := List.nodup_append.1 hnodup
  obtain ⟨hi, hr⟩ := List.nodup_cons.1 hir
  obtain ⟨hfront, hback⟩ := (segment_append l r i).1 h
  have hil : i ∉ l := fun hil => hlr i hil i (by simp) rfl
  have hjoin₁ : fd' (lastOf .head l) = some (firstOf r .head) := by
    simp [hfd _ (Ne.symm (entry_ne_lastOf hil))]
  have hjoin₂ : bk' (firstOf r .head) = some (lastOf .head l) := by
    simp [hbk _ (Ne.symm (entry_ne_firstOf hi))]
  have hfront' : Segment fd' bk' .head (firstOf r .head) l := by
    refine hfront.retarget hl (by simp) ?_ (fun j hj => ?_) hjoin₁ hjoin₂
    · rintro u hu hne
      have h₂ : u ≠ .entry i := by
        obtain rfl | ⟨j, hj, rfl⟩ := hu
        · simp
        · intro hgiven
          cases hgiven
          exact hil hj
      simp [hfd u h₂, hne]
    · have h₁ := entry_ne_firstOf fun hjr => hlr j hj j (List.mem_cons_of_mem i hjr) rfl
      have h₂ : Position.entry j ≠ .entry i := by
        intro hgiven
        cases hgiven
        exact hil hj
      simp [hbk _ h₂, h₁]
  cases r with
  | nil =>
    rw [List.append_nil]
    exact hfront'
  | cons j r =>
    obtain ⟨hj, -⟩ := List.nodup_cons.1 hr
    refine (segment_append l r j).2 ⟨hfront', hback.2.2.behind (fun k hk => ?_) ?_⟩
    · have hkr : k ∈ j :: r := List.mem_cons.2 hk
      have h₁ := entry_ne_lastOf fun hkl => hlr k hkl k (List.mem_cons_of_mem i hkr) rfl
      have h₂ : Position.entry k ≠ .entry i := by
        intro hgiven
        cases hgiven
        exact hi hkr
      simp [hfd _ h₂, h₁]
    · rintro u (rfl | ⟨k, hk, rfl⟩)
      · simp [hbk]
      · have h₁ : k ≠ j := fun e => hj (e ▸ hk)
        have h₂ : Position.entry k ≠ .entry i := by
          intro hgiven
          cases hgiven
          exact hi (by simp [hk])
        simp [hbk _ h₂, h₁]

end Segment

theorem linkOf_isSome_of_after {c : Chain f} {p : Pool α capacity} {x y : Position}
    (h : c.after p x = some y) : (c.linkOf p x).isSome := by
  obtain ⟨l, hl, -⟩ := Option.map_eq_some_iff.1 h
  simp [hl]

theorem linkOf_isSome_of_before {c : Chain f} {p : Pool α capacity} {x y : Position}
    (h : c.before p x = some y) : (c.linkOf p x).isSome := by
  obtain ⟨l, hl, -⟩ := Option.map_eq_some_iff.1 h
  simp [hl]

theorem Relinked.at_lastOf {l : List Nat} {S : Nat → Prop} {p q : Pool α capacity}
    (h : Relinked f (fun j => lastOf .head l = .entry j) p q) (hS : ∀ j ∈ l, S j) :
    Relinked f S p q := by
  refine h.mono fun j hj => ?_
  obtain he | ⟨k, hk, he⟩ := lastOf_eq .head l
  · simp [he] at hj
  · rw [he, Position.entry.injEq] at hj
    exact hj ▸ hS k hk

theorem Relinked.at_firstOf {r : List Nat} {S : Nat → Prop} {p q : Pool α capacity}
    (h : Relinked f (fun j => firstOf r .head = .entry j) p q) (hS : ∀ j ∈ r, S j) :
    Relinked f S p q := by
  refine h.mono fun j hj => ?_
  obtain he | ⟨k, hk, he⟩ := firstOf_eq r .head
  · simp [he] at hj
  · rw [he, Position.entry.injEq] at hj
    exact hj ▸ hS k hk

/-- A loose entry is put between the front part `l` and the back part `r` of what a chain spells. -/
theorem Spells.insertBetween {c : Chain f} {p : Pool α capacity} {l r : List Nat} {i : Nat} {x : α}
    (h : c.Spells p (l ++ r)) (hx : p.at? i = some x) (hloose : f.get x = .loose)
    (hi : i ∉ l ++ r) :
    ∃ d q, c.insertBetween p i (lastOf .head l) (firstOf r .head) = .ok (d, q) ∧
      d.Spells q (l ++ i :: r) ∧ Relinked f (fun j => j ∈ l ++ i :: r) p q := by
  have hi' := hi
  rw [List.mem_append, not_or] at hi'
  obtain ⟨hcut₁, hcut₂⟩ := h.ring.cut
  have w₁ := rewired_entry c hx (fun x => f.set x ⟨lastOf .head l, firstOf r .head⟩)
    (f.get_set ..) fun y => f.bare_set ..
  obtain ⟨c₂, p₂, hrun₂, w₂⟩ := setNext_rewired
    (w₁.keeps _ (linkOf_isSome_of_after hcut₁)) (.entry i)
  obtain ⟨c₃, p₃, hrun₃, w₃⟩ := setPrev_rewired
    (w₂.keeps _ (w₁.keeps _ (linkOf_isSome_of_before hcut₂))) (.entry i)
  refine ⟨{ c₃ with length := c₃.length + 1 }, p₃, ?_, ⟨?_, ?_, ?_⟩, ?_⟩
  · simp [Chain.insertBetween, Pool.item_of_at? hx, Pool.modifyItem_of_at? hx, hloose, hrun₂, hrun₃,
      bind, Except.bind, pure, Except.pure, Link.isLinked, Link.loose]
  · exact List.nodup_middle.2 (List.nodup_cons.2 ⟨hi, h.nodup⟩)
  · simp only [w₃.length, w₂.length, h.length, List.length_append, List.length_cons]
    omega
  · refine h.ring.insert h.nodup hi (fun u => ?_) fun u => ?_
    · exact (w₃.after u).trans (by rw [w₂.after, w₁.after])
    · exact (w₃.before u).trans (by rw [w₂.before, w₁.before])
  · refine (w₁.pool.mono ?_).trans ((w₂.pool.at_lastOf ?_).trans (w₃.pool.at_firstOf ?_))
    · rintro j ⟨⟩
      simp
    · exact fun j hj => by simp [hj]
    · exact fun j hj => by simp [hj]

theorem Spells.remove {c : Chain f} {p : Pool α capacity} {l r : List Nat} {i : Nat}
    (h : c.Spells p (l ++ i :: r)) :
    ∃ d q, c.remove p i = .ok (d, q) ∧ d.Spells q (l ++ r) ∧
      (q.at? i).map f.get = some .loose ∧ Relinked f (fun j => j ∈ l ++ i :: r) p q := by
  obtain ⟨hi, hnodup⟩ := List.nodup_cons.1 (List.nodup_middle.1 h.nodup)
  rw [List.mem_append, not_or] at hi
  obtain ⟨x, hx, hlink⟩ := h.link
  obtain ⟨hfront, hback⟩ := (segment_append l r i).1 h.ring
  obtain ⟨c₁, p₁, hrun₁, w₁⟩ := setNext_rewired
    (linkOf_isSome_of_after (Segment.cut (r := []) (by simpa using hfront)).1) (firstOf r .head)
  obtain ⟨c₂, p₂, hrun₂, w₂⟩ := setPrev_rewired
    (w₁.keeps _ (linkOf_isSome_of_before (Segment.cut (l := []) (r := r) hback).2)) (lastOf .head l)
  have hsome := w₂.keeps _ (w₁.keeps (.entry i) (by simp [linkOf, hx]))
  obtain ⟨y, hy⟩ : ∃ y, p₂.at? i = some y := by
    simpa [linkOf, Option.isSome_iff_exists] using hsome
  have w₃ := rewired_entry c₂ hy (fun x => f.set x .loose) (f.get_set ..) fun y => f.bare_set ..
  have hlength : c₂.length = (l ++ r).length + 1 := by
    rw [w₂.length, w₁.length, h.length, List.length_append, List.length_append, List.length_cons]
    rfl
  refine ⟨{ c₂ with length := c₂.length - 1 }, p₂.modifyAt i fun x => f.set x .loose, ?_,
    ⟨hnodup, ?_, ?_⟩, ?_, ?_⟩
  · have hlinked : (⟨lastOf .head l, firstOf r .head⟩ : Link).isLinked = true := by
      simpa [Link.isLinked] using firstOf_head_ne_unlinked r
    have hcount : ¬ c₂.length = 0 := by
      rw [hlength]
      exact Nat.succ_ne_zero _
    simp [Chain.remove, Pool.item_of_at? hx, hlink, hlinked, hrun₁, hrun₂,
      Pool.modifyItem_of_at? hy, hcount, bind, Except.bind, pure, Except.pure]
  · rw [hlength]
    rfl
  · refine h.ring.delete h.nodup (fun u hu => ?_) fun u hu => ?_
    · exact (w₃.after u).trans (by rw [if_neg hu, w₂.after, w₁.after])
    · exact (w₃.before u).trans (by rw [if_neg hu, w₂.before, w₁.before])
  · simp [Pool.at?_modifyAt, hy, f.get_set]
  · refine (w₁.pool.at_lastOf ?_).trans ((w₂.pool.at_firstOf ?_).trans (w₃.pool.mono ?_))
    · exact fun j hj => by simp [hj]
    · exact fun j hj => by simp [hj]
    · rintro j ⟨⟩
      simp

end AirSurvey.Chain
