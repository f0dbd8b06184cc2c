import AirSurvey.Proofs.Survey.Berths

set_option autoImplicit false

/-!
What handles stand for. A handle names its device, or its network, for as long as that is there, and
nothing from then on, whatever gets its slot: the generation of the slot has moved on, and comes
round again only after all of the others have been there.
-/

namespace AirSurvey

namespace Pool

variable {α β : Type} {capacity : Nat} {p q r : Pool α capacity} {label : α → β}
  {gone : Handle → Bool}

/-- `q` is `p` without the entries that are gone: their slots are a generation on, and every other
entry still has its handle and its label. -/
structure Sheds (label : α → β) (gone : Handle → Bool) (p q : Pool α capacity) : Prop where
  generation : ∀ i, q.generation i = p.generation i + if (p.handleAt? i).any gone then 1 else 0
  kept : ∀ k x, p.get? k = some x → gone k = false → ∃ y, q.get? k = some y ∧ label y = label x

abbrev Keeps (label : α → β) (p q : Pool α capacity) : Prop := Sheds label (fun _ => false) p q

theorem keeps_of_generation (hgeneration : ∀ i, q.generation i = p.generation i)
    (hkept : ∀ k x, p.get? k = some x → ∃ y, q.get? k = some y ∧ label y = label x) :
    p.Keeps label q where
  generation i := by rw [hgeneration]; cases p.handleAt? i <;> simp
  kept k x hx _ := hkept k x hx

theorem Keeps.generation (h : p.Keeps label q) (i : Nat) : q.generation i = p.generation i := by
  rw [Sheds.generation h]
  cases p.handleAt? i <;> simp

theorem Keeps.trans (h : p.Keeps label q) (h' : q.Keeps label r) : p.Keeps label r :=
  keeps_of_generation (fun i => (Keeps.generation h' i).trans (Keeps.generation h i))
    fun k x hx => by
      obtain ⟨y, hy, hyx⟩ := h.kept k x hx rfl
      obtain ⟨z, hz, hzy⟩ := h'.kept k y hy rfl
      exact ⟨z, hz, hzy.trans hyx⟩

theorem keeps_of_view_eq (h : q.view label = p.view label) : p.Keeps label q :=
  keeps_of_generation (generation_of_view_eq h) fun k x hx => by
    have hget : (q.get? k).map label = (p.get? k).map label := by
      rw [← get?_view, h, get?_view]
    rw [hx, Option.map_some, Option.map_eq_some_iff] at hget
    exact hget

theorem Taken.keeps {build : Handle → α} {h : Handle} (ht : p.Taken build h q) :
    p.Keeps label q :=
  keeps_of_generation ht.generation fun k x hx => by
    have hne : ¬h = k := by
      rintro rfl
      have hat := at?_of_get? hx
      rw [ht.vacant] at hat
      cases hat
    exact ⟨x, by rw [ht.get?, if_neg hne, hx], rfl⟩

theorem Keeps.sheds (h : p.Keeps label q) (hgone : ∀ k, gone k = false) : p.Sheds label gone q := by
  obtain rfl : gone = fun _ => false := funext hgone
  exact h

theorem sheds_foldl_release {is : List Nat}
    (hskeleton : q.skeleton = is.foldl release p.skeleton)
    (hgone : ∀ k x, p.get? k = some x → (k.index ∈ is ↔ gone k = true))
    (hkept : ∀ k x, p.get? k = some x → k.index ∉ is → ∃ y, q.get? k = some y ∧ label y = label x) :
    p.Sheds label gone q where
  generation i := by
    have hsome : (p.skeleton.at? i).isSome = (p.at? i).isSome := by
      rw [skeleton, at?_view, Option.isSome_map]
    rw [← generation_skeleton, hskeleton, generation_foldl_release, generation_skeleton, hsome]
    congr 1
    cases hi : p.at? i with
    | none =>
      have hnone := (handleAt?_eq_none_iff p i).2 hi
      simp [hnone]
    | some x =>
      obtain ⟨h, hh⟩ := Option.isSome_iff_exists.1 ((handleAt?_isSome p i).trans (by rw [hi]; rfl))
      obtain rfl := index_of_handleAt? hh
      have hmem := hgone h x ((get?_eq_some_iff _ _ _).2 ⟨hh, hi⟩)
      simp [hh, hmem]
  kept k x hx hk := hkept k x hx fun hmem => by
    rw [(hgone k x hx).1 hmem] at hk
    cases hk

theorem sheds_clear (hgone : ∀ k, gone k = true) : p.Sheds label gone p.clear where
  generation i := by
    rw [generation_clear, ← handleAt?_isSome]
    cases p.handleAt? i <;> simp [hgone]
  kept k x _ hk := by
    rw [hgone] at hk
    cases hk

end Pool

namespace Survey

variable {s t : Survey} {c c' : Chronicle} {f : Frame} {i : Nat} {d : Device}
  {events : List Event} {o : Operation} {answer : Except Refusal Reply}

/-- Whether an operation takes away the device that a handle names: a sweep that evicts it, or what
forgets all of them. -/
def forgets (s : Survey) (k : Handle) : Operation → Bool
  | .sweep now timeout => (s.device? k).any (·.isStale now timeout)
  | .expire now => (s.device? k).any (·.isStale now s.settings.timeout)
  | .clear => true
  | _ => false

/-- Whether an operation takes away the network that a handle names: a purge that releases it, or
what forgets all of them. -/
def dissolves (s : Survey) (k : Handle) : Operation → Bool
  | .purge => (s.networks.get? k).any Network.isEmpty
  | .clear => true
  | _ => false

def freesDevice (s : Survey) (i : Nat) (o : Operation) : Bool :=
  (s.devices.handleAt? i).any (s.forgets · o)

def freesNetwork (s : Survey) (i : Nat) (o : Operation) : Bool :=
  (s.networks.pool.handleAt? i).any (s.dissolves · o)

/-- How many of some operations meet a condition on the survey before them, when they follow each
other on a survey. -/
def tally (p : Survey → Operation → Bool) (s : Survey) : List Operation → Nat
  | [] => 0
  | o :: ops => (if p s o then 1 else 0) + match o.act.run s with
    | .ok x => tally p x.state ops
    | .error _ => 0

theorem Arrives.keeps (m : s.Arrives c f i d t c' events) :
    s.devices.Keeps Device.address t.devices := by
  refine Pool.keeps_of_generation (fun j => ?_) fun _ _ hk => m.kept hk
  cases m with
  | revisits =>
    have hview := Pool.view_modifyAt_of_eq Device.id s.devices i
      (fun d => { d with profile := d.profile.absorb f s.settings.weight }) fun _ => rfl
    exact Pool.generation_of_view_eq hview j
  | admits _ ht hview => rw [Pool.generation_of_view_eq hview, ht.generation]

theorem Settles.keeps (m : s.Settles c f i d t c' events) :
    s.devices.Keeps Device.address t.devices :=
  Pool.keeps_of_view_eq (Pool.view_eq_comp m.touched.view fun y => y.2.1)

theorem Sweeps.sheds {now : Timestamp} {timeout : UInt32} {u : Survey} {n : Nat}
    (m : Sweeps now timeout c.ages s c u c' events n) (hs : s.Sound c) (hu : u.Indexed c') :
    s.devices.Sheds Device.address (fun k => (s.device? k).any (·.isStale now timeout))
      (u.swept c' n).devices := by
  have hstale : ∀ k x, s.devices.get? k = some x →
      s.stale now timeout k.index = x.isStale now timeout := by
    intro k x hx
    simp [stale, Pool.at?_of_get? hx]
  refine Pool.sheds_foldl_release (m.swept_skeleton hs) (fun k x hx => ?_) fun k x hx hk => ?_
  · have hmem : k.index ∈ c.ages := (hs.roster.mem _).2 (by simp [Pool.at?_of_get? hx])
    rw [List.mem_filter, hstale k x hx, device?, hx]
    exact and_iff_right hmem
  · have hget := (m.swept_thinned hs hu).1.get? k
    have hstays : s.stale now timeout k.index = false := by
      have hmem : k.index ∈ c.ages := (hs.roster.mem _).2 (by simp [Pool.at?_of_get? hx])
      simpa [hmem] using hk
    rw [hstays, if_neg Bool.false_ne_true, hx, Option.map_some, Option.map_eq_some_iff] at hget
    obtain ⟨y, hy, hyx⟩ := hget
    exact ⟨y, hy, (congrArg Device.address hyx :)⟩

theorem Becomes.sheds_devices (m : s.Becomes c o t c' events answer) (hs : s.Sound c) :
    s.devices.Sheds Device.address (s.forgets · o) t.devices := by
  cases m with
  | refuses => exact (Pool.keeps_of_view_eq rfl).sheds fun _ => rfl
  | observes _ harrives _ hsettles => exact (harrives.keeps.trans hsettles.keeps).sheds fun _ => rfl
  | sweeps hoperation hsweeps hindexed =>
    have hsheds := hsweeps.sheds hs hindexed
    obtain rfl | ⟨rfl, rfl⟩ := hoperation
    · exact hsheds
    · exact hsheds
  | purges => exact (Pool.keeps_of_view_eq rfl).sheds fun _ => rfl
  | clears => exact Pool.sheds_clear fun _ => rfl

theorem FollowsName.keeps (m : s.FollowsName c f i d t c' events) :
    s.networks.pool.Keeps Network.name t.networks.pool := by
  cases m with
  | stays => exact Pool.keeps_of_view_eq rfl
  | moves _ _ hmoved =>
    obtain ⟨u, hentered, hcore⟩ := hmoved.networks
    have hview := (Pool.view_eq_comp hcore Prod.fst).trans (u.departed_names _ _)
    cases hentered with
    | known => exact Pool.keeps_of_view_eq hview
    | made _ ht => exact ht.keeps.trans (Pool.keeps_of_view_eq hview)

theorem Settles.keeps_networks (m : s.Settles c f i d t c' events) :
    s.networks.pool.Keeps Network.name t.networks.pool := by
  obtain ⟨hname, hchannel, -, hlook⟩ := m
  obtain ⟨-, -, -, hnetworks, -⟩ := hchannel.frame
  refine hname.keeps.trans ?_
  rw [← hnetworks]
  cases hlook with
  | outside => exact Pool.keeps_of_view_eq rfl
  | inside => exact Pool.keeps_of_view_eq (Pool.view_modifyAt_of_eq _ _ _ _ fun _ => rfl)

theorem sheds_purge (s : Survey) :
    s.networks.pool.Sheds Network.name (fun k => (s.networks.get? k).any Network.isEmpty)
      s.purgeNetworks.2.networks.pool := by
  have hpurged : s.networks.purge.2.pool =
      (s.networks.emptyOnes.map Handle.index).foldl Pool.release s.networks.pool := by
    rw [List.foldl_map]
    rfl
  have hempty : ∀ k n, s.networks.pool.get? k = some n →
      (k.index ∈ s.networks.emptyOnes.map Handle.index ↔
        (s.networks.get? k).any Network.isEmpty = true) := by
    intro k n hn
    rw [NetworkTable.index_mem_emptyOnes hn, NetworkTable.get?, hn]
    rfl
  refine Pool.sheds_foldl_release ?_ hempty fun k n hn hk => ⟨n, ?_, rfl⟩
  · rw [← Pool.skeleton_foldl_release, ← hpurged]
    rfl
  · have hget := s.networks.get?_purge k
    have hstays : n.isEmpty = false := by
      rw [NetworkTable.index_mem_emptyOnes hn] at hk
      simpa using hk
    have hn' : s.networks.get? k = some n := hn
    rw [hn', Option.filter_some, hstays] at hget
    exact hget

theorem Becomes.sheds_networks (m : s.Becomes c o t c' events answer) (hs : s.Sound c) :
    s.networks.pool.Sheds Network.name (s.dissolves · o) t.networks.pool := by
  cases m with
  | refuses => exact (Pool.keeps_of_view_eq rfl).sheds fun _ => rfl
  | observes _ harrives _ hsettles =>
    obtain ⟨-, hnetworks, -⟩ := harrives.frame
    have hkeeps := hsettles.keeps_networks
    rw [hnetworks] at hkeeps
    exact hkeeps.sheds fun _ => rfl
  | sweeps hoperation hsweeps hindexed =>
    have hkeeps := Pool.keeps_of_view_eq (hsweeps.swept_thinned hs hindexed).1.names
    obtain rfl | ⟨rfl, rfl⟩ := hoperation
    · exact hkeeps.sheds fun _ => rfl
    · exact hkeeps.sheds fun _ => rfl
  | purges => exact s.sheds_purge
  | clears => exact Pool.sheds_clear fun _ => rfl

theorem tally_cons {p : Survey → Operation → Bool} (hrun : o.act.run s = .ok ⟨t, events, answer⟩)
    (ops : List Operation) :
    tally p s (o :: ops) = (if p s o then 1 else 0) + tally p t ops := by
  rw [tally, hrun]

/-! ## What handles find -/

theorem find?_of_device? (hs : s.Indexed c) {k : Handle} (hd : s.device? k = some d) :
    s.find? d.address = .ok (some d) := by
  have hat := Pool.at?_of_get? hd
  rw [find?_eq hs, (hs.roster.found d.address k.index).2 ⟨d, hat, rfl⟩, Option.bind_some, hat]

theorem nodup_ids (hs : s.Indexed c) : ∃ ds, s.allDevices = .ok ds ∧ (ds.map Device.id).Nodup := by
  refine ⟨_, allDevices_eq hs, ?_⟩
  have hindices : (c.ages.filterMap s.devices.at?).map (fun d => d.id.index) = c.ages := by
    rw [List.map_filterMap]
    refine (List.filterMap_congr fun i hi => ?_).trans List.filterMap_some
    obtain ⟨d, hd⟩ := Option.isSome_iff_exists.1 ((hs.roster.mem i).1 hi)
    rw [hd, Option.map_some, Pool.index_of_handleAt? (hs.roster.handle i d hd)]
  refine List.Nodup.of_map Handle.index ?_
  rw [List.map_map]
  change ((c.ages.filterMap s.devices.at?).map fun d => d.id.index).Nodup
  rw [hindices]
  exact (hs.roster.woven.spells ()).nodup

end Survey

/-! ## Runs -/

section Runs

variable {α β : Type} {capacity : Nat} {pool : Survey → Pool α capacity} {label : α → β}
  {gone : Survey → Handle → Operation → Bool} {h h' : History} {c : Chronicle}

/-- After a run the generation of a slot tells how often it was given back. -/
theorem foldlM_generation
    (hstep : ∀ {s t c c' o events answer}, s.Becomes c o t c' events answer → s.Sound c →
      (pool s).Sheds label (gone s · o) (pool t)) (hs : h.survey.Sound c) {ops : List Operation}
    (hrun : ops.foldlM History.next h = .ok h') (i : Nat) :
    (pool h'.survey).generation i = (pool h.survey).generation i + UInt32.ofNat
      (Survey.tally (fun s o => ((pool s).handleAt? i).any (gone s · o)) h.survey ops) := by
  induction ops generalizing h c with
  | nil =>
    obtain rfl := Except.ok.inj hrun
    exact (UInt32.add_zero _).symm
  | cons o ops ih =>
    obtain ⟨t, c', events, answer, hact, hbecomes, ht⟩ := Survey.act_run hs o
    rw [List.foldlM_cons, History.next_of_run hact] at hrun
    have hlater := ih (h := ⟨t, ⟨o, events, answer⟩ :: h.steps⟩) ht hrun
    have hsheds := hstep hbecomes hs
    rw [hlater, hsheds.generation, Survey.tally_cons hact, UInt32.ofNat_add, UInt32.add_assoc]
    congr 2
    split <;> rfl

theorem foldlM_kept
    (hstep : ∀ {s t c c' o events answer}, s.Becomes c o t c' events answer → s.Sound c →
      (pool s).Sheds label (gone s · o) (pool t)) (hs : h.survey.Sound c) {ops : List Operation}
    (hrun : ops.foldlM History.next h = .ok h') {k : Handle} {x : α}
    (hx : (pool h.survey).get? k = some x) :
    (Survey.tally (gone · k) h.survey ops = 0 →
      ∃ y, (pool h'.survey).get? k = some y ∧ label y = label x) ∧
    (Survey.tally (gone · k) h.survey ops ≠ 0 →
      Survey.tally (fun s o => ((pool s).handleAt? k.index).any (gone s · o)) h.survey ops ≠
        0) := by
  induction ops generalizing h c x with
  | nil =>
    obtain rfl := Except.ok.inj hrun
    exact ⟨fun _ => ⟨x, hx, rfl⟩, fun hne => hne⟩
  | cons o ops ih =>
    obtain ⟨t, c', events, answer, hact, hbecomes, ht⟩ := Survey.act_run hs o
    rw [List.foldlM_cons, History.next_of_run hact] at hrun
    have hsheds := hstep hbecomes hs
    rw [Survey.tally_cons hact, Survey.tally_cons hact]
    cases hgone : gone h.survey k o with
    | true =>
      -- the entry is taken away now, so its slot is given back now
      have hfreed : ((pool h.survey).handleAt? k.index).any (gone h.survey · o) = true := by
        rw [((Pool.get?_eq_some_iff _ _ _).1 hx).1, Option.any_some, hgone]
      simp [hfreed]
    | false =>
      obtain ⟨y, hy, hyx⟩ := hsheds.kept k x hx hgone
      obtain ⟨hstays, hfreed⟩ := ih (h := ⟨t, ⟨o, events, answer⟩ :: h.steps⟩) ht hrun hy
      refine ⟨fun hzero => ?_, fun hne => ?_⟩
      · obtain ⟨z, hz, hzy⟩ := hstays (by simpa using hzero)
        exact ⟨z, hz, hzy.trans hyx⟩
      · have hlater := hfreed (by simpa using hne)
        dsimp only at hlater
        omega

/-- What was taken away is not found again before its slot was given back so often that the
generations have come round. -/
theorem foldlM_get?
    (hstep : ∀ {s t c c' o events answer}, s.Becomes c o t c' events answer → s.Sound c →
      (pool s).Sheds label (gone s · o) (pool t)) (hs : h.survey.Sound c) {ops : List Operation}
    (hrun : ops.foldlM History.next h = .ok h') {k : Handle} {x : α}
    (hx : (pool h.survey).get? k = some x) :
    (Survey.tally (gone · k) h.survey ops = 0 →
      ∃ y, (pool h'.survey).get? k = some y ∧ label y = label x) ∧
    (Survey.tally (gone · k) h.survey ops ≠ 0 →
      Survey.tally (fun s o => ((pool s).handleAt? k.index).any (gone s · o)) h.survey ops <
        2 ^ 32 → (pool h'.survey).get? k = none) := by
  obtain ⟨hstays, hfreed⟩ := foldlM_kept hstep hs hrun hx
  refine ⟨hstays, fun htaken hround => ?_⟩
  have hgeneration := foldlM_generation hstep hs hrun k.index
  have hcount := hfreed htaken
  have hbefore : (pool h.survey).generation k.index = k.generation := by
    by_contra hne
    rw [Pool.get?_eq_generation, if_neg hne] at hx
    cases hx
  rw [Pool.get?_eq_generation, hgeneration, hbefore, if_neg]
  -- the generation has moved on, and not as far as to where it was
  intro heq
  have hnat := congrArg UInt32.toNat heq
  have hlt := k.generation.toNat_lt
  rw [UInt32.toNat_add, UInt32.toNat_ofNat'] at hnat
  omega

end Runs

/-- A handle that a frame was answered with, or that any device goes by, names that device in every
later state until an operation takes it away, and a handle of a network names the network of its
name as long, with members or without. From then on a handle names nothing, whoever gets its
address, its name or its slot, up to the state where its slot was given back `2 ^ 32` times. No two
devices have the same handle, and no two networks. -/
theorem play_handles (settings : Settings) (before later : List Operation) :
    ∃ h h', play settings before = .ok h ∧ play settings (before ++ later) = .ok h' ∧
      (∀ x ∈ h.steps.head?, ∀ d, x.answer = .ok (.device d) → h.survey.device? d.id = some d) ∧
      (∀ k d, h.survey.device? k = some d →
        d.id = k ∧ (∀ g, d.network = some g → (h.survey.networks.get? g).isSome) ∧
          (Survey.tally (·.forgets k ·) h.survey later = 0 → ∃ e, h'.survey.device? k = some e ∧
            e.id = k ∧ e.address = d.address ∧ h'.survey.find? d.address = .ok (some e)) ∧
          (Survey.tally (·.forgets k ·) h.survey later ≠ 0 →
            Survey.tally (·.freesDevice k.index ·) h.survey later < 2 ^ 32 →
            h'.survey.device? k = none)) ∧
      (∀ k n, h.survey.networks.get? k = some n →
        (Survey.tally (·.dissolves k ·) h.survey later = 0 →
          ∃ n', h'.survey.networks.get? k = some n' ∧ n'.name = n.name ∧
            h'.survey.networks.find? n.name.text = some k) ∧
          (Survey.tally (·.dissolves k ·) h.survey later ≠ 0 →
            Survey.tally (·.freesNetwork k.index ·) h.survey later < 2 ^ 32 →
            h'.survey.networks.get? k = none ∧ h'.survey.membersOf k = .ok [])) ∧
      (∃ ds, h.survey.allDevices = .ok ds ∧ (ds.map Device.id).Nodup) ∧
      (h.survey.networks.pool.entries.map Prod.fst).Nodup := by
  obtain ⟨h, c, hbefore, hs, hanswer⟩ := play_run (P := fun h _ => ∀ x ∈ h.steps.head?, ∀ d,
      x.answer = .ok (.device d) → h.survey.device? d.id = some d) settings
    (fun x hx => by cases hx) (fun h c o t c' events answer _ _ hbecomes ht x hx d hd => by
      obtain rfl := Option.some.inj hx
      dsimp only at hd ⊢
      subst hd
      obtain ⟨i, hd⟩ := hbecomes.at?_of_device
      exact ht.roster.get?_id hd) before
  obtain ⟨h', c', hlater, hs', -⟩ := foldlM_next (P := fun _ _ => True) hs trivial
    (fun _ _ _ _ _ _ _ _ _ _ _ => trivial) later
  have hplay : play settings (before ++ later) = .ok h' := by
    rw [play, List.foldlM_append]
    change (play settings before >>= _) = _
    rw [hbefore]
    exact hlater
  refine ⟨h, h', hbefore, (play_append hbefore later).trans hlater, hanswer, fun k d hd => ?_,
    fun k n hn => ?_, Survey.nodup_ids hs.toIndexed, h.survey.networks.pool.handles_nodup⟩
  · obtain ⟨hstays, htaken⟩ := foldlM_get? Survey.Becomes.sheds_devices hs hlater hd
    refine ⟨hs.roster.id_of_get? hd, fun g hg => ?_, fun hzero => ?_, htaken⟩
    · obtain ⟨n, hn⟩ := hs.exists_network (Pool.at?_of_get? hd) hg
      rw [hn]
      rfl
    · obtain ⟨e, he, haddress⟩ := hstays hzero
      refine ⟨e, he, hs'.roster.id_of_get? he, haddress, ?_⟩
      rw [← haddress]
      exact Survey.find?_of_device? hs'.toIndexed he
  · obtain ⟨hstays, htaken⟩ := foldlM_get? Survey.Becomes.sheds_networks hs hlater hn
    refine ⟨fun hzero => ?_, fun hne hround => ?_⟩
    · obtain ⟨n', hn', hname⟩ := hstays hzero
      exact ⟨n', hn', hname,
        (hs'.grouping.find?_eq_some_iff _ _).2 ⟨n', hn', congrArg NetworkName.text hname⟩⟩
    · have hnone : h'.survey.networks.get? k = none := htaken hne hround
      refine ⟨hnone, ?_⟩
      rw [Survey.membersOf, hnone]

end AirSurvey
