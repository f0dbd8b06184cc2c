import AirSurvey.Proofs.Survey.Auditing
import AirSurvey.Proofs.Survey.Snapshot

set_option autoImplicit false

/-!
Nothing that is done to a survey and nothing that is read of it faults, whatever was done to it
before: no link leads astray, nothing is counted wrong, and no audit finds a defect.
-/

namespace AirSurvey

/-- A position where a ring through a pool goes on. -/
def Position.Holds {α : Type} {capacity : Nat} (p : Pool α capacity) : Position → Prop
  | .unlinked => False
  | .head => True
  | .entry i => (p.at? i).isSome

def Link.Holds {α : Type} {capacity : Nat} (p : Pool α capacity) (l : Link) : Prop :=
  l.prev.Holds p ∧ l.next.Holds p

namespace Chain

variable {α ι : Type} {capacity : Nat} {f : LinkField α} {p : Pool α capacity}

theorem lastOf_holds {l : List Nat} (h : ∀ i ∈ l, (p.at? i).isSome) :
    (lastOf .head l).Holds p := by
  obtain he | ⟨i, hi, he⟩ := lastOf_eq .head l
  · rw [he]
    exact trivial
  · rw [he]
    exact h i hi

theorem firstOf_holds {l : List Nat} (h : ∀ i ∈ l, (p.at? i).isSome) :
    (firstOf l .head).Holds p := by
  obtain he | ⟨i, hi, he⟩ := firstOf_eq l .head
  · rw [he]
    exact trivial
  · rw [he]
    exact h i hi

theorem Spells.head_holds {c : Chain f} {s : List Nat} (h : c.Spells p s) : c.head.Holds p := by
  rw [h.head]
  exact ⟨lastOf_holds fun _ => h.at?_isSome, firstOf_holds fun _ => h.at?_isSome⟩

theorem Woven.link_holds {chains : ι → Chain f} {lists : ι → List Nat} (w : Woven f p chains lists)
    {i : Nat} {x : α} (hx : p.at? i = some x) : f.get x = .loose ∨ (f.get x).Holds p := by
  by_cases hon : ∃ a, i ∈ lists a
  · obtain ⟨a, ha⟩ := hon
    have hsome : ∀ j ∈ lists a, (p.at? j).isSome := fun j => (w.spells a).at?_isSome
    have hspells := w.spells a
    obtain ⟨l, r, hlr⟩ := List.append_of_mem ha
    rw [hlr] at hspells hsome
    obtain ⟨y, hy, hlink⟩ := hspells.link
    obtain rfl := Option.some.inj (hx.symm.trans hy)
    rw [hlink]
    exact .inr ⟨lastOf_holds fun j hj => hsome j (by simp [hj]),
      firstOf_holds fun j hj => hsome j (by simp [hj])⟩
  · exact .inl (w.loose i x hx fun a ha => hon ⟨a, ha⟩)

def Counts (c : Chain f) (p : Pool α capacity) : Prop :=
  ∃ l, c.toList p = .ok l ∧ l.Nodup ∧ c.length = l.length ∧ c.length ≤ p.size

theorem Spells.counts {c : Chain f} {s : List Nat} (h : c.Spells p s) (hp : p.Sound) :
    c.Counts p :=
  ⟨s, h.toList, h.nodup, h.length,
    h.length ▸ hp.length_le_size h.nodup fun _ => h.at?_isSome⟩

end Chain

/-- A pool counts its entries and has room for them. The other slots used so far are free, each of
them once, and an entry that goes is counted off. -/
structure Pool.Counts {α : Type} {capacity : Nat} (p : Pool α capacity) : Prop where
  entries : p.entries.length = p.size
  free : p.size + p.free.length = p.slots.size ∧ p.free.Nodup
  room : p.slots.size ≤ capacity
  release : ∀ i, (p.at? i).isSome → (p.release i).size + 1 = p.size

theorem Pool.Sound.counts {α : Type} {capacity : Nat} {p : Pool α capacity} (h : p.Sound) :
    p.Counts where
  entries := h.length_entries
  free := ⟨h.size_add_free, h.free_nodup⟩
  room := h.bounded
  release i hi := by
    have hpos : 1 ≤ p.size := h.length_le_size (List.nodup_singleton i) (by simpa using hi)
    obtain ⟨x, hx⟩ := Option.isSome_iff_exists.1 hi
    rw [size_release hx]
    omega

namespace Survey

/-- Whatever is asked of a survey is answered. -/
structure Answers (s : Survey) : Prop where
  allDevices : ∃ ds, s.allDevices = .ok ds
  find? : ∀ m, ∃ d, s.find? m = .ok d
  membersOf : ∀ h, ∃ ds, s.membersOf h = .ok ds
  devicesOn : ∀ channel, ∃ ds, s.devicesOn channel = .ok ds
  channelsOf : ∀ i d, s.devices.at? i = some d → ∃ channels, s.channelsOf d = .ok channels
  snapshot : ∃ x, s.snapshot = .ok x
  audit : s.audit = .ok ()

/-- No index leads to a slot that holds nothing, and no chain through an entry that is on none. -/
structure Anchored (s : Survey) : Prop where
  addresses : ∀ m i, s.addresses.find? m = some i → (s.devices.at? i).isSome
  ages : s.ages.head.Holds s.devices
  devices : ∀ i d, s.devices.at? i = some d →
    (d.inAges = .loose ∨ d.inAges.Holds s.devices) ∧
      (d.inNetwork = .loose ∨ d.inNetwork.Holds s.devices) ∧
      d.channels.head.Holds s.channels.presences
  networks : ∀ g n, s.networks.pool.at? g = some n → n.members.head.Holds s.devices
  channels : ∀ e ∈ s.channels.entries.toList, e.members.head.Holds s.channels.presences
  presences : ∀ m x, s.channels.presences.at? m = some x →
    (x.onDevice = .loose ∨ x.onDevice.Holds s.channels.presences) ∧
      (x.onChannel = .loose ∨ x.onChannel.Holds s.channels.presences) ∧
      x.entry < s.channels.entries.size ∧ (s.devices.at? x.device).isSome

/-- Everything is counted right and has room. -/
structure Counted (s : Survey) : Prop where
  devices : s.devices.Counts
  networks : s.networks.pool.Counts
  presences : s.channels.presences.Counts
  addresses : s.addresses.size = s.devices.size
  channels : s.channels.entries.size ≤ Capacity.channels
  ages : s.ages.Counts s.devices ∧ s.ages.length = s.devices.size
  membersOf : ∀ g n, s.networks.pool.at? g = some n → n.members.Counts s.devices
  channelsOf : ∀ i d, s.devices.at? i = some d →
    d.channels.Counts s.channels.presences ∧ d.channelCount.toNat = d.channels.length
  devicesOn : ∀ e ∈ s.channels.entries.toList, e.members.Counts s.channels.presences

variable {s : Survey} {c : Chronicle}

theorem Indexed.exists_spells_members (hs : s.Indexed c) {g : Nat} {n : Network}
    (hn : s.networks.pool.at? g = some n) : ∃ l, n.members.Spells s.devices l := by
  have hspells := hs.grouping.woven.spells g
  rw [show s.networks.chain g = n.members by simp [NetworkTable.chain, hn]] at hspells
  exact ⟨_, hspells⟩

theorem Indexed.exists_spells_channels (hs : s.Indexed c) {i : Nat} {d : Device}
    (hd : s.devices.at? i = some d) : ∃ l, d.channels.Spells s.channels.presences l := by
  have hspells := hs.hearing.onDevice.spells i
  rw [deviceChain_of_at? hd] at hspells
  exact ⟨_, hspells⟩

theorem Indexed.exists_spells_heard (hs : s.Indexed c) {e : ChannelEntry}
    (he : e ∈ s.channels.entries.toList) : ∃ l, e.members.Spells s.channels.presences l := by
  obtain ⟨k, hk⟩ := List.mem_iff_getElem?.1 he
  rw [Array.getElem?_toList] at hk
  have hspells := hs.hearing.onChannel.spells k
  rw [show s.channels.chain k = e.members by simp [ChannelTable.chain, hk]] at hspells
  exact ⟨_, hspells⟩

theorem Sound.exists_snapshot (hs : s.Sound c) : ∃ x, s.snapshot = .ok x := by
  have hdevices := allDevices_eq hs.toIndexed
  obtain ⟨rs, hrs, -⟩ := exists_mapM_eq_ok (g := s.reportOf) (l := c.ages.filterMap s.devices.at?)
    fun d hd => by
      obtain ⟨i, hi⟩ := (mem_allDevices hs.toIndexed).1 hd
      obtain ⟨r, hr, -⟩ := exists_reportOf hs hi
      exact ⟨_, hr⟩
  exact ⟨_, snapshot_eq hdevices hrs⟩

theorem Sound.answers (hs : s.Sound c) : s.Answers where
  allDevices := ⟨_, allDevices_eq hs.toIndexed⟩
  find? m := ⟨_, find?_eq hs.toIndexed m⟩
  membersOf h := ⟨_, membersOf_eq hs.toIndexed h⟩
  devicesOn channel := ⟨_, devicesOn_eq hs.toIndexed channel⟩
  channelsOf _ _ hd := ⟨_, channelsOf_eq hs.toIndexed hd⟩
  snapshot := hs.exists_snapshot
  audit := audit_eq hs

theorem Indexed.anchored (hs : s.Indexed c) : s.Anchored where
  addresses _ _ hfind := occupied_of_find? hs hfind
  ages := (hs.roster.woven.spells ()).head_holds
  devices i d hd := by
    obtain ⟨l, hspells⟩ := hs.exists_spells_channels hd
    exact ⟨hs.roster.woven.link_holds hd, hs.grouping.woven.link_holds hd, hspells.head_holds⟩
  networks g n hn := by
    obtain ⟨l, hspells⟩ := hs.exists_spells_members hn
    exact hspells.head_holds
  channels e he := by
    obtain ⟨l, hspells⟩ := hs.exists_spells_heard he
    exact hspells.head_holds
  presences m x hx := by
    refine ⟨hs.hearing.onDevice.link_holds hx, hs.hearing.onChannel.link_holds hx, ?_, ?_⟩
    · rw [← ChannelTable.length_numbers]
      exact hs.hearing.entry m x.entry (by simp [ChannelTable.entryOf, hx])
    · exact hs.owner m x.device (by simp [ChannelTable.deviceOf, hx])

theorem Indexed.counted (hs : s.Indexed c) : s.Counted where
  devices := hs.roster.pool.counts
  networks := hs.grouping.pool.counts
  presences := hs.hearing.pool.counts
  addresses := hs.roster.size_addresses
  channels := by
    rw [← ChannelTable.length_numbers]
    exact hs.hearing.room
  ages := by
    have hspells := hs.roster.woven.spells ()
    exact ⟨hspells.counts hs.roster.pool,
      hspells.length.trans (hs.roster.pool.length_eq_size hspells.nodup hs.roster.mem)⟩
  membersOf g n hn := by
    obtain ⟨l, hspells⟩ := hs.exists_spells_members hn
    exact hspells.counts hs.roster.pool
  channelsOf i d hd := by
    obtain ⟨l, hspells⟩ := hs.exists_spells_channels hd
    exact ⟨hspells.counts hs.hearing.pool, hs.count i d hd⟩
  devicesOn e he := by
    obtain ⟨l, hspells⟩ := hs.exists_spells_heard he
    exact hspells.counts hs.hearing.pool

end Survey

/-- After every run anything can be done to the survey and anything can be asked of it without a
fault. No link leads astray and nothing is counted wrong. -/
theorem play_safe (settings : Settings) (ops : List Operation) :
    ∃ s steps, play settings ops = .ok ⟨s, steps⟩ ∧ (∀ o : Operation, ∃ x, o.act.run s = .ok x) ∧
      s.Answers ∧ s.Anchored ∧ s.Counted := by
  obtain ⟨⟨s, steps⟩, c, hplay, hs, -⟩ :=
    play_run (P := fun _ _ => True) settings trivial (fun _ _ _ _ _ _ _ _ _ _ _ => trivial) ops
  refine ⟨s, steps, hplay, fun o => ?_, hs.answers, hs.anchored, hs.counted⟩
  obtain ⟨t, c', events, answer, hrun, -⟩ := Survey.act_run hs o
  exact ⟨_, hrun⟩

end AirSurvey
