import AirSurvey.Proofs.Chain.Weave

set_option autoImplicit false

/-!
Moving all entries of one chain to an end of another. Two rings become one at a seam: only the links
on both sides of it change, however long the chains are.
-/

namespace AirSurvey.Chain

variable {α ι : Type} {capacity : Nat} {f : LinkField α}

/-- Two rings without a common entry become one when the last position of the first and the first
position of the second name each other. -/
theorem Segment.join {fd₁ bk₁ fd₂ bk₂ fd bk : Position → Option Position} {l r : List Nat}
    (hl : Segment fd₁ bk₁ .head .head l) (hr : Segment fd₂ bk₂ .head .head r)
    (hnodup : (l ++ r).Nodup)
    (hfd₁ : ∀ u, u = .head ∨ (∃ i ∈ l, u = .entry i) → u ≠ lastOf .head l → fd u = fd₁ u)
    (hbk₁ : ∀ i ∈ l, bk (.entry i) = bk₁ (.entry i))
    (hfd₂ : ∀ i ∈ r, fd (.entry i) = fd₂ (.entry i))
    (hbk₂ : ∀ u, u = .head ∨ (∃ i ∈ r, u = .entry i) → u ≠ firstOf r .head → bk u = bk₂ u)
    (hseam₁ : fd (lastOf .head l) = some (firstOf r .head))
    (hseam₂ : bk (firstOf r .head) = some (lastOf .head l)) :
    Segment fd bk .head .head (l ++ r) := by
  obtain ⟨hln, hrn, -⟩ := List.nodup_append.1 hnodup
  have hfront : Segment fd bk .head (firstOf r .head) l :=
    hl.retarget hln (by simp) hfd₁ hbk₁ hseam₁ hseam₂
  cases r with
  | nil =>
    rw [List.append_nil]
    exact hfront
  | cons j r =>
    obtain ⟨hj, -⟩ := List.nodup_cons.1 hrn
    refine (segment_append l r j).2 ⟨hfront, hr.2.2.behind (fun k hk => hfd₂ k ?_) fun u hu => ?_⟩
    · exact List.mem_cons.2 hk
    · refine hbk₂ u (hu.imp_right fun ⟨k, hk, he⟩ => ⟨k, List.mem_cons_of_mem j hk, he⟩) ?_
      obtain rfl | ⟨k, hk, rfl⟩ := hu
      · simp
      · intro he
        cases he
        exact hj hk

theorem exists_firstOf {t : List Nat} (ht : t ≠ []) (y : Position) :
    ∃ i ∈ t, firstOf t y = .entry i := by
  obtain ⟨i, r, rfl⟩ := List.exists_cons_of_ne_nil ht
  exact ⟨i, List.mem_cons_self, rfl⟩

theorem exists_lastOf {t : List Nat} (ht : t ≠ []) (x : Position) :
    ∃ i ∈ t, lastOf x t = .entry i := by
  obtain ⟨i, r, rfl⟩ := List.exists_cons_of_ne_nil ht
  obtain h | ⟨j, hj, h⟩ := lastOf_eq (.entry i) r
  · exact ⟨i, List.mem_cons_self, h⟩
  · exact ⟨j, List.mem_cons_of_mem i hj, h⟩

theorem entry_ne_head (i : Nat) : Position.entry i ≠ .head := nofun

theorem entry_ne_of_apart {s t : List Nat} (h : ∀ i ∈ s, i ∉ t) {i j : Nat} (hi : i ∈ s)
    (hj : j ∈ t) : Position.entry i ≠ .entry j := by
  intro he
  cases he
  exact h i hi hj

section splice

variable {c d : Chain f} {p : Pool α capacity} {s t : List Nat} {first last : Nat}

theorem modifyItem_of_setNext {e : Chain f} {q : Pool α capacity} {i : Nat} {target : Position}
    (h : c.setNext p (.entry i) target = .ok (e, q)) :
    e = c ∧ p.modifyItem i (fun x => f.setNext x target) = .ok q := by
  rw [setNext] at h
  cases hp : p.modifyItem i fun x => f.setNext x target with
  | error => cases hp ▸ h
  | ok p' =>
    cases hp ▸ h
    exact ⟨rfl, rfl⟩

theorem modifyItem_of_setPrev {e : Chain f} {q : Pool α capacity} {i : Nat} {target : Position}
    (h : c.setPrev p (.entry i) target = .ok (e, q)) :
    e = c ∧ p.modifyItem i (fun x => f.setPrev x target) = .ok q := by
  rw [setPrev] at h
  cases hp : p.modifyItem i fun x => f.setPrev x target with
  | error => cases hp ▸ h
  | ok p' =>
    cases hp ▸ h
    exact ⟨rfl, rfl⟩

section rewirings

variable {c₁ c₂ c₃ c₄ : Chain f} {p₁ p₂ p₃ p₄ : Pool α capacity}

/-- Appending comes to four rewirings, at both ends of either chain. -/
theorem append_of_rewirings (hd : d.head = ⟨.entry last, .entry first⟩)
    (h₁ : c.setNext p c.head.prev (.entry first) = .ok (c₁, p₁))
    (h₂ : c₁.setPrev p₁ (.entry first) c.head.prev = .ok (c₂, p₂))
    (h₃ : c₂.setNext p₂ (.entry last) .head = .ok (c₃, p₃))
    (h₄ : c₃.setPrev p₃ .head (.entry last) = .ok (c₄, p₄)) :
    c.append d p = .ok ({ c₄ with length := c₄.length + d.length }, .empty, p₄) := by
  obtain ⟨rfl, hp₂⟩ := modifyItem_of_setPrev h₂
  obtain ⟨rfl, hp₃⟩ := modifyItem_of_setNext h₃
  cases h₄
  simp [Chain.append, hd, h₁, hp₂, hp₃, bind, Except.bind, pure, Except.pure]

theorem prepend_of_rewirings (hd : d.head = ⟨.entry last, .entry first⟩)
    (h₁ : c.setPrev p c.head.next (.entry last) = .ok (c₁, p₁))
    (h₂ : c₁.setNext p₁ (.entry last) c.head.next = .ok (c₂, p₂))
    (h₃ : c₂.setPrev p₂ (.entry first) .head = .ok (c₃, p₃))
    (h₄ : c₃.setNext p₃ .head (.entry first) = .ok (c₄, p₄)) :
    c.prepend d p = .ok ({ c₄ with length := c₄.length + d.length }, .empty, p₄) := by
  obtain ⟨rfl, hp₂⟩ := modifyItem_of_setNext h₂
  obtain ⟨rfl, hp₃⟩ := modifyItem_of_setPrev h₃
  cases h₄
  simp [Chain.prepend, hd, h₁, hp₂, hp₃, bind, Except.bind, pure, Except.pure]

end rewirings

theorem Relinked.at_entry {S : Nat → Prop} {p q : Pool α capacity} {i : Nat}
    (h : Relinked f (fun j => Position.entry i = .entry j) p q) (hS : S i) : Relinked f S p q :=
  h.mono fun _ he => Position.entry.inj he ▸ hS

theorem Relinked.at_head {S : Nat → Prop} {p q : Pool α capacity}
    (h : Relinked f (fun j => Position.head = .entry j) p q) : Relinked f S p q :=
  h.mono fun _ he => nomatch he

theorem Spells.append (hc : c.Spells p s) (hd : d.Spells p t) (ht : t ≠ [])
    (hapart : ∀ i ∈ s, i ∉ t) :
    ∃ c' q, c.append d p = .ok (c', .empty, q) ∧ c'.Spells q (s ++ t) ∧
      Relinked f (fun j => j ∈ s ∨ j ∈ t) p q := by
  obtain ⟨first, hfirst, hfirstOf⟩ := exists_firstOf ht .head
  obtain ⟨last, hlast, hlastOf⟩ := exists_lastOf ht .head
  have hdhead : d.head = ⟨.entry last, .entry first⟩ := by rw [hd.head, hlastOf, hfirstOf]
  have hsome : ∀ i ∈ t, (c.linkOf p (.entry i)).isSome := fun i hi => by
    simpa [linkOf] using hd.at?_isSome hi
  have hnot : ∀ {i}, i ∈ t → i ∉ s := fun hi his => hapart _ his hi
  have hnodup : (s ++ t).Nodup :=
    List.nodup_append.2 ⟨hc.nodup, hd.nodup, fun i hi j hj e => hapart i hi (e ▸ hj)⟩
  have htail : c.head.prev = lastOf .head s := by rw [hc.head]
  have hend : (c.linkOf p c.head.prev).isSome :=
    htail ▸ linkOf_isSome_of_after (Segment.cut (r := []) (by simpa using hc.ring)).1
  obtain ⟨c₁, p₁, hrun₁, w₁⟩ := setNext_rewired hend (.entry first)
  obtain ⟨c₂, p₂, hrun₂, w₂⟩ := setPrev_rewired (w₁.keeps _ (hsome first hfirst)) c.head.prev
  obtain ⟨c₃, p₃, hrun₃, w₃⟩ := setNext_rewired
    (w₂.keeps _ (w₁.keeps _ (hsome last hlast))) .head
  obtain ⟨c₄, p₄, hrun₄, w₄⟩ := setPrev_rewired
    (show (c₃.linkOf p₃ .head).isSome from rfl) (.entry last)
  have hafter : ∀ u, c₄.after p₄ u = if u = .entry last then some .head
      else if u = lastOf .head s then some (.entry first) else c.after p u := by
    intro u
    rw [w₄.after, w₃.after, w₂.after, w₁.after, htail]
  have hbefore : ∀ u, c₄.before p₄ u = if u = .head then some (.entry last)
      else if u = .entry first then some (lastOf .head s) else c.before p u := by
    intro u
    rw [w₄.before, w₃.before, w₂.before, w₁.before, htail]
  refine ⟨{ c₄ with length := c₄.length + d.length }, p₄, ?_, ⟨hnodup, ?_, ?_⟩, ?_⟩
  · exact append_of_rewirings hdhead hrun₁ hrun₂ hrun₃ hrun₄
  · simp only [w₄.length, w₃.length, w₂.length, w₁.length, hc.length, hd.length,
      List.length_append]
  · refine hc.ring.join hd.ring hnodup (fun u hu hne => ?_) (fun i hi => ?_) (fun i hi => ?_)
      (fun u hu hne => ?_) ?_ ?_
    · have hu : u ≠ .entry last := by
        obtain rfl | ⟨i, hi, rfl⟩ := hu
        · simp
        · exact entry_ne_of_apart hapart hi hlast
      exact (hafter u).trans (by rw [if_neg hu, if_neg hne])
    · exact (hbefore (.entry i)).trans
        (by rw [if_neg (entry_ne_head i), if_neg (entry_ne_of_apart hapart hi hfirst)])
    · by_cases hil : i = last
      · have hend := (Segment.cut (r := []) (by simpa using hd.ring)).1
        rw [hlastOf, firstOf_nil] at hend
        subst hil
        exact (hafter (.entry i)).trans ((if_pos rfl).trans hend.symm)
      · refine (hafter (.entry i)).trans ?_
        rw [if_neg fun e => hil (Position.entry.inj e), if_neg (entry_ne_lastOf (hnot hi))]
        rfl
    · refine (hbefore u).trans ?_
      obtain rfl | ⟨i, hi, rfl⟩ := hu
      · simp [before, linkOf, hdhead]
      · rw [if_neg (entry_ne_head i), if_neg (hfirstOf ▸ hne)]
        rfl
    · rw [hfirstOf]
      exact (hafter (lastOf .head s)).trans
        (by rw [if_neg (entry_ne_lastOf (hnot hlast)).symm, if_pos rfl])
    · rw [hfirstOf]
      exact (hbefore (.entry first)).trans (by rw [if_neg (entry_ne_head first), if_pos rfl])
  · rw [htail] at w₁
    exact (w₁.pool.at_lastOf fun j => .inl).trans ((w₂.pool.at_entry (.inr hfirst)).trans
      ((w₃.pool.at_entry (.inr hlast)).trans w₄.pool.at_head))

theorem Spells.prepend (hc : c.Spells p s) (hd : d.Spells p t) (ht : t ≠ [])
    (hapart : ∀ i ∈ s, i ∉ t) :
    ∃ c' q, c.prepend d p = .ok (c', .empty, q) ∧ c'.Spells q (t ++ s) ∧
      Relinked f (fun j => j ∈ s ∨ j ∈ t) p q := by
  obtain ⟨first, hfirst, hfirstOf⟩ := exists_firstOf ht .head
  obtain ⟨last, hlast, hlastOf⟩ := exists_lastOf ht .head
  have hdhead : d.head = ⟨.entry last, .entry first⟩ := by rw [hd.head, hlastOf, hfirstOf]
  have hsome : ∀ i ∈ t, (c.linkOf p (.entry i)).isSome := fun i hi => by
    simpa [linkOf] using hd.at?_isSome hi
  have hnot : ∀ {i}, i ∈ t → i ∉ s := fun hi his => hapart _ his hi
  have hnodup : (t ++ s).Nodup :=
    List.nodup_append.2 ⟨hd.nodup, hc.nodup, fun i hi j hj e => hapart j hj (e ▸ hi)⟩
  have hfront : c.head.next = firstOf s .head := by rw [hc.head]
  have hend : (c.linkOf p c.head.next).isSome :=
    hfront ▸ linkOf_isSome_of_before (Segment.cut (l := []) hc.ring).2
  obtain ⟨c₁, p₁, hrun₁, w₁⟩ := setPrev_rewired hend (.entry last)
  obtain ⟨c₂, p₂, hrun₂, w₂⟩ := setNext_rewired (w₁.keeps _ (hsome last hlast)) c.head.next
  obtain ⟨c₃, p₃, hrun₃, w₃⟩ := setPrev_rewired
    (w₂.keeps _ (w₁.keeps _ (hsome first hfirst))) .head
  obtain ⟨c₄, p₄, hrun₄, w₄⟩ := setNext_rewired
    (show (c₃.linkOf p₃ .head).isSome from rfl) (.entry first)
  have hafter : ∀ u, c₄.after p₄ u = if u = .head then some (.entry first)
      else if u = .entry last then some (firstOf s .head) else c.after p u := by
    intro u
    rw [w₄.after, w₃.after, w₂.after, w₁.after, hfront]
  have hbefore : ∀ u, c₄.before p₄ u = if u = .entry first then some .head
      else if u = firstOf s .head then some (.entry last) else c.before p u := by
    intro u
    rw [w₄.before, w₃.before, w₂.before, w₁.before, hfront]
  refine ⟨{ c₄ with length := c₄.length + d.length }, p₄, ?_, ⟨hnodup, ?_, ?_⟩, ?_⟩
  · exact prepend_of_rewirings hdhead hrun₁ hrun₂ hrun₃ hrun₄
  · simp only [w₄.length, w₃.length, w₂.length, w₁.length, hc.length, hd.length,
      List.length_append]
    omega
  · refine hd.ring.join hc.ring hnodup (fun u hu hne => ?_) (fun i hi => ?_) (fun i hi => ?_)
      (fun u hu hne => ?_) ?_ ?_
    · refine (hafter u).trans ?_
      obtain rfl | ⟨i, hi, rfl⟩ := hu
      · simp [after, linkOf, hdhead]
      · rw [if_neg (entry_ne_head i), if_neg (hlastOf ▸ hne)]
        rfl
    · by_cases hif : i = first
      · have hend := (Segment.cut (l := []) hd.ring).2
        rw [hfirstOf, lastOf_nil] at hend
        subst hif
        exact (hbefore (.entry i)).trans ((if_pos rfl).trans hend.symm)
      · refine (hbefore (.entry i)).trans ?_
        rw [if_neg fun e => hif (Position.entry.inj e), if_neg (entry_ne_firstOf (hnot hi))]
        rfl
    · exact (hafter (.entry i)).trans
        (by rw [if_neg (entry_ne_head i), if_neg (entry_ne_of_apart hapart hi hlast)])
    · have hu : u ≠ .entry first := by
        obtain rfl | ⟨i, hi, rfl⟩ := hu
        · simp
        · exact entry_ne_of_apart hapart hi hfirst
      exact (hbefore u).trans (by rw [if_neg hu, if_neg hne])
    · rw [hlastOf]
      exact (hafter (.entry last)).trans (by rw [if_neg (entry_ne_head last), if_pos rfl])
    · rw [hlastOf]
      exact (hbefore (firstOf s .head)).trans
        (by rw [if_neg (entry_ne_firstOf (hnot hfirst)).symm, if_pos rfl])
  · rw [hfront] at w₁
    exact (w₁.pool.at_firstOf fun j => .inl).trans ((w₂.pool.at_entry (.inr hlast)).trans
      ((w₃.pool.at_entry (.inr hfirst)).trans w₄.pool.at_head))

end splice

namespace Woven

variable {p q : Pool α capacity} {chains : ι → Chain f} {lists : ι → List Nat} [DecidableEq ι]

open Function (update)

theorem spliced (w : Woven f p chains lists) {a b : ι} {c : Chain f} {s : List Nat}
    (hc : c.Spells q s) (hs : ∀ i, i ∈ s ↔ i ∈ lists a ∨ i ∈ lists b)
    (hpool : Relinked f (fun j => j ∈ lists a ∨ j ∈ lists b) p q) (hab : a ≠ b) :
    Woven f q (update (update chains a c) b .empty) (update (update lists a s) b []) := by
  -- Whose entry a slot was decides whose it is.
  have howner : ∀ e i, i ∈ update (update lists a s) b [] e →
      (e = a ∧ (i ∈ lists a ∨ i ∈ lists b)) ∨ e ≠ a ∧ e ≠ b ∧ i ∈ lists e := by
    intro e i hi
    by_cases heb : e = b
    · rw [heb, Function.update_self] at hi
      cases hi
    · rw [Function.update_of_ne heb] at hi
      by_cases hea : e = a
      · rw [hea, Function.update_self, hs] at hi
        exact .inl ⟨hea, hi⟩
      · rw [Function.update_of_ne hea] at hi
        exact .inr ⟨hea, heb, hi⟩
  refine ⟨fun e => ?_, fun e e' i hi hi' => ?_, fun i x hx hi => ?_⟩
  · by_cases heb : e = b
    · rw [heb, Function.update_self, Function.update_self]
      exact empty_spells q
    · rw [Function.update_of_ne heb, Function.update_of_ne heb]
      by_cases hea : e = a
      · rw [hea, Function.update_self, Function.update_self]
        exact hc
      · rw [Function.update_of_ne hea, Function.update_of_ne hea]
        refine (w.spells e).transport fun i hi => ?_
        rw [hpool.kept i]
        intro hgiven
        rcases hgiven with hia | hib
        · exact hea (w.apart e a i hi hia)
        · exact heb (w.apart e b i hi hib)
  · obtain ⟨rfl, hold⟩ | ⟨hea, heb, hold⟩ := howner e i hi <;>
      obtain ⟨rfl, hold'⟩ | ⟨hea', heb', hold'⟩ := howner e' i hi'
    · rfl
    · exact (hold.elim (fun h => hea' (w.apart e' e i hold' h))
        fun h => heb' (w.apart e' b i hold' h)).elim
    · exact (hold'.elim (fun h => hea (w.apart e e' i hold h))
        fun h => heb (w.apart e b i hold h)).elim
    · exact w.apart e e' i hold hold'
  · have ha := hi a
    rw [Function.update_of_ne hab, Function.update_self, hs, not_or] at ha
    have hkept := hpool.kept i fun h => h.elim ha.1 ha.2
    refine w.loose i x (hkept.symm.trans hx) fun e he => ?_
    by_cases heb : e = b
    · exact ha.2 (heb ▸ he)
    · by_cases hea : e = a
      · exact ha.1 (hea ▸ he)
      · refine hi e ?_
        rwa [Function.update_of_ne heb, Function.update_of_ne hea]

omit [DecidableEq ι] in
theorem apart_of_ne (w : Woven f p chains lists) {a b : ι} (hab : a ≠ b) :
    ∀ i ∈ lists a, i ∉ lists b := fun i ha hb => hab (w.apart a b i ha hb)

theorem append (w : Woven f p chains lists) {a b : ι} (hab : a ≠ b) :
    ∃ c d q, (chains a).append (chains b) p = .ok (c, d, q) ∧
      Woven f q (update (update chains a c) b d)
        (update (update lists a (lists a ++ lists b)) b []) ∧
      Relinked f (fun j => j ∈ lists a ∨ j ∈ lists b) p q := by
  by_cases hb : lists b = []
  · have hempty : (chains b).Spells p [] := hb ▸ w.spells b
    refine ⟨chains a, chains b, p, by rw [hempty.eq_empty]; rfl, ?_, .refl _ p⟩
    rw [hb, List.append_nil, Function.update_eq_self, Function.update_eq_self,
      Function.update_eq_self, ← hb, Function.update_eq_self]
    exact w
  · obtain ⟨c, q, hrun, hc, hpool⟩ :=
      (w.spells a).append (w.spells b) hb (w.apart_of_ne hab)
    exact ⟨c, .empty, q, hrun, w.spliced hc (fun _ => List.mem_append) hpool hab, hpool⟩

theorem prepend (w : Woven f p chains lists) {a b : ι} (hab : a ≠ b) :
    ∃ c d q, (chains a).prepend (chains b) p = .ok (c, d, q) ∧
      Woven f q (update (update chains a c) b d)
        (update (update lists a (lists b ++ lists a)) b []) ∧
      Relinked f (fun j => j ∈ lists a ∨ j ∈ lists b) p q := by
  by_cases hb : lists b = []
  · have hempty : (chains b).Spells p [] := hb ▸ w.spells b
    refine ⟨chains a, chains b, p, by rw [hempty.eq_empty]; rfl, ?_, .refl _ p⟩
    rw [hb, List.nil_append, Function.update_eq_self, Function.update_eq_self,
      Function.update_eq_self, ← hb, Function.update_eq_self]
    exact w
  · obtain ⟨c, q, hrun, hc, hpool⟩ :=
      (w.spells a).prepend (w.spells b) hb (w.apart_of_ne hab)
    exact ⟨c, .empty, q, hrun, w.spliced hc (fun _ => List.mem_append.trans or_comm) hpool hab,
      hpool⟩

end Woven

end AirSurvey.Chain
