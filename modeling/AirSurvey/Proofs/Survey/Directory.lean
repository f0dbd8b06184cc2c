import AirSurvey.Proofs.Survey.Networks

set_option autoImplicit false

/-!
The names of a table of networks. Networks come and go in any order, and their slots are used again;
still a name finds its network, and no other, and there is room for a name exactly when the table
can find or make its network.
-/

namespace AirSurvey.NetworkTable

inductive Request where
  | find (name : String)
  | enter (name : String)
  /-- A change in place to the members of a network, and to whether it is split. -/
  | arrange (h : Handle) (members : Chain Device.byNetwork) (isSplit : Bool)
  | purge

def Request.act (t : NetworkTable) : Request → Except (Breakdown NetworkTable) NetworkTable
  | .find _ => .ok t
  | .enter name => ((NetworkTable.enter name).run t).map Outcome.state
  | .arrange h members isSplit => .ok ⟨t.pool.modify h fun n => { n with members, isSplit }⟩
  | .purge => .ok t.purge.2

variable {t : NetworkTable}

/-- The slots of a table are in order, and its names are apart. -/
structure Kept (t : NetworkTable) : Prop where
  pool : t.pool.Sound
  distinct : t.Distinct

theorem kept_empty : empty.Kept := by
  refine ⟨Pool.sound_empty, fun g g' n n' hn => ?_⟩
  rw [empty, Pool.at?_empty] at hn
  cases hn

inductive Enters (t : NetworkTable) (name : String) : Outcome NetworkTable Handle → Prop
  | known {h : Handle} (hfind : t.find? name = some h) : Enters t name ⟨t, [], .ok h⟩
  | tooLong (hfind : t.find? name = none) (hlong : NetworkName.maxBytes < name.utf8ByteSize) :
    Enters t name ⟨t, [], .error .nameTooLong⟩
  | full (hfind : t.find? name = none) (hfits : name.utf8ByteSize ≤ NetworkName.maxBytes)
      (hfull : t.pool.size = Capacity.networks) :
    Enters t name ⟨t, [.networkTableFull name], .error (.full .networks)⟩
  | made {h : Handle} {r : Pool Network Capacity.networks} (hfind : t.find? name = none)
      (hfits : name.utf8ByteSize ≤ NetworkName.maxBytes) (hroom : t.pool.size ≠ Capacity.networks)
      (ht : t.pool.Taken (fun _ => ⟨⟨name, hfits⟩, .empty, false⟩) h r) :
    Enters t name ⟨⟨r⟩, [.newNetwork name], .ok h⟩

theorem Kept.enter_run (hk : t.Kept) (name : String) :
    ∃ o, (enter name).run t = .ok o ∧ t.Enters name o := by
  cases hfind : t.find? name with
  | some h => exact ⟨_, enter_known hfind, .known hfind⟩
  | none =>
    by_cases hfits : name.utf8ByteSize ≤ NetworkName.maxBytes
    · have hname : NetworkName.ofText? name = some ⟨name, hfits⟩ := dif_pos hfits
      by_cases hfull : t.pool.size = Capacity.networks
      · refine ⟨_, ?_, .full hfind hfits hfull⟩
        simp [enter, hfind, hname, hk.pool.insert?_full _ hfull]
      · obtain ⟨h, r, -, ht⟩ := hk.pool.insert?_room (fun _ => ⟨⟨name, hfits⟩, .empty, false⟩) hfull
        exact ⟨_, @enter_made t ⟨name, hfits⟩ h r hfind ht, .made hfind hfits hfull ht⟩
    · have hname : NetworkName.ofText? name = none := dif_neg hfits
      refine ⟨_, ?_, .tooLong hfind (Nat.lt_of_not_le hfits)⟩
      simp [enter, hfind, hname]

theorem Kept.entered (hk : t.Kept) {name : String} {o : Outcome NetworkTable Handle}
    (he : t.Enters name o) : o.state.Kept := by
  cases he with
  | known | tooLong | full => exact hk
  | made hfind _ _ ht => exact ⟨ht.sound, hk.distinct.made hfind ht⟩

theorem Kept.purge (hk : t.Kept) : t.purge.2.Kept :=
  ⟨hk.pool.foldl_release _, hk.distinct.purge⟩

theorem Kept.arrange (hk : t.Kept) (h : Handle) (members : Chain Device.byNetwork)
    (isSplit : Bool) : Kept ⟨t.pool.modify h fun n => { n with members, isSplit }⟩ := by
  rw [Pool.modify]
  split
  · exact ⟨hk.pool.modifyAt _ _,
      hk.distinct.of_names (Pool.view_modifyAt_of_eq _ _ _ _ fun _ => rfl)⟩
  · exact hk

theorem Kept.act (hk : t.Kept) (request : Request) : ∃ u, request.act t = .ok u ∧ u.Kept := by
  cases request with
  | find => exact ⟨t, rfl, hk⟩
  | enter name =>
    obtain ⟨o, hrun, he⟩ := hk.enter_run name
    refine ⟨o.state, ?_, hk.entered he⟩
    rw [Request.act, hrun, Action.map_ok]
  | arrange h members isSplit => exact ⟨_, rfl, hk.arrange h members isSplit⟩
  | purge => exact ⟨_, rfl, hk.purge⟩

theorem Kept.foldlM_act (hk : t.Kept) (requests : List Request) :
    ∃ u, requests.foldlM Request.act t = .ok u ∧ u.Kept := by
  induction requests generalizing t with
  | nil => exact ⟨t, rfl, hk⟩
  | cons request requests ih =>
    obtain ⟨u, hact, hu⟩ := hk.act request
    rw [List.foldlM_cons, hact]
    exact ih hu

/-! ## What a table tells and does at any time -/

theorem Kept.handle_inj (hk : t.Kept) {h k : Handle} {n m : Network} (hn : t.get? h = some n)
    (hm : t.get? k = some m) (hname : n.name.text = m.name.text) : h = k := by
  have hfind := (hk.distinct.find?_eq_some_iff _ _).2 ⟨n, hn, hname⟩
  have hfind' := (hk.distinct.find?_eq_some_iff _ _).2 ⟨m, hm, rfl⟩
  exact Option.some.inj (hfind.symm.trans hfind')

theorem Kept.hasRoomFor_iff (hk : t.Kept) {name : String}
    (hfits : name.utf8ByteSize ≤ NetworkName.maxBytes) :
    t.hasRoomFor name = true ↔ ∃ u events h, (enter name).run t = .ok ⟨u, events, .ok h⟩ := by
  obtain ⟨o, hrun, he⟩ := hk.enter_run name
  rw [hrun, hasRoomFor, Pool.isFull]
  cases he with
  | known hfind => simp [hfind]
  | tooLong _ hlong => omega
  | full hfind _ hfull => simp [hfind, hfull]
  | made hfind _ hroom => simp [hroom]

/-- Whatever a new table of networks was asked for, names are apart, and a name finds a network
exactly when one has it, and that one. To enter a name that is known answers its network. A new name
is refused if it is too long, and then if there are as many networks as there can be; else one
network of that name, without members, is there for it. Nothing else changes, and nothing at all if
the name was known or was refused. For names that fit, the table says beforehand whether entering
succeeds. -/
theorem requests_keep_names (requests : List Request) :
    ∃ t, requests.foldlM Request.act empty = .ok t ∧
      (∀ h k n m, t.get? h = some n → t.get? k = some m → n.name.text = m.name.text → h = k) ∧
      (∀ name h, t.find? name = some h ↔ ∃ n, t.get? h = some n ∧ n.name.text = name) ∧
      (∀ name h, t.find? name = some h → (enter name).run t = .ok ⟨t, [], .ok h⟩) ∧
      (∀ name, t.find? name = none →
        if 32 < name.utf8ByteSize then
          (enter name).run t = .ok ⟨t, [], .error .nameTooLong⟩
        else if t.pool.entries.length = 32 then
          (enter name).run t = .ok ⟨t, [.networkTableFull name], .error (.full .networks)⟩
        else
          ∃ h u n, (enter name).run t = .ok ⟨u, [.newNetwork name], .ok h⟩ ∧ n.text = name ∧
            t.get? h = none ∧ ∀ k, u.get? k = if h = k then some ⟨n, .empty, false⟩ else t.get? k) ∧
      ∀ name : String, name.utf8ByteSize ≤ 32 →
        (t.hasRoomFor name = true ↔
          ∃ u events h, (enter name).run t = .ok ⟨u, events, .ok h⟩) := by
  obtain ⟨t, hrun, hk⟩ := kept_empty.foldlM_act requests
  refine ⟨t, hrun, fun h k n m hn hm => hk.handle_inj hn hm, hk.distinct.find?_eq_some_iff,
    fun name h => enter_known, fun name hnone => ?_, fun name => hk.hasRoomFor_iff⟩
  obtain ⟨o, hrun, he⟩ := hk.enter_run name
  rw [hk.pool.length_entries, hrun]
  cases he with
  | known hfind =>
    rw [hnone] at hfind
    cases hfind
  | tooLong _ hlong =>
    have hlong : 32 < name.utf8ByteSize := hlong
    rw [if_pos hlong]
  | full _ hfits hfull =>
    have hfits : ¬32 < name.utf8ByteSize := Nat.not_lt.2 hfits
    have hfull : t.pool.size = 32 := hfull
    rw [if_neg hfits, if_pos hfull]
  | made _ hfits hroom ht =>
    have hshort : ¬32 < name.utf8ByteSize := Nat.not_lt.2 hfits
    have hroom : ¬t.pool.size = 32 := hroom
    rw [if_neg hshort, if_neg hroom]
    refine ⟨_, _, ⟨name, hfits⟩, rfl, rfl, ?_, ht.get?⟩
    rw [get?, Pool.get?_eq, ht.vacant, ite_self]

end AirSurvey.NetworkTable
