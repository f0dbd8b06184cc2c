import AirSurvey.Proofs.Survey.Resweeping

set_option autoImplicit false

/-!
The log as a journal. Whoever reads nothing but the log, and writes down each device that comes,
goes or joins a network, has the devices and the names of their networks as the survey has them.
-/

namespace AirSurvey

/-! ## Reading the log -/

/-- What is written down at a record, when each device stands with the name of its network. -/
def Event.write (l : List (MacAddress × Option String)) : Event → List (MacAddress × Option String)
  | .newDevice m _ => (m, none) :: l
  | .evicted m _ => l.filter fun e => e.1 != m
  | .joined m name => l.map fun e => if e.1 = m then (m, some name) else e
  | _ => l

def replay (l : List (MacAddress × Option String)) (log : List Event) :
    List (MacAddress × Option String) :=
  log.foldl Event.write l

theorem replay_append (l : List (MacAddress × Option String)) (log more : List Event) :
    replay l (log ++ more) = replay (replay l log) more := List.foldl_append

def History.log (h : History) : List Event := h.steps.reverse.flatMap Step.events

theorem History.log_cons (s t : Survey) (x : Step) (steps : List Step) :
    log ⟨t, x :: steps⟩ = log ⟨s, steps⟩ ++ x.events := by
  simp [log, List.flatMap_append]

theorem NetworkTable.replay_regardNews (split : Finset NetworkName) (isSplit : NetworkName → Bool)
    (current : Option NetworkName) (l : List (MacAddress × Option String)) :
    replay l (regardNews split isSplit current) = l := by
  cases current with
  | none => rfl
  | some name =>
    rw [regardNews]
    split <;> rfl

theorem NetworkTable.level_regardNews (split : Finset NetworkName) (isSplit : NetworkName → Bool)
    (current : Option NetworkName) : ∀ e ∈ regardNews split isSplit current, e.level ≠ .warn := by
  cases current with
  | none => simp [regardNews]
  | some name =>
    rw [regardNews]
    split <;> simp [Event.level]

namespace Outlook

open NetworkTable (regardNews replay_regardNews level_regardNews)

variable {x : Outlook} {m : MacAddress} {f : Frame} {now : Timestamp} {timeout : UInt32}

/-- The devices, the newest first, each with the name of its network. -/
def register (x : Outlook) : List (MacAddress × Option String) :=
  x.tracked.map fun m => (m, (x.nameOf m).map NetworkName.text)

/-- Something is known of the tracked devices only, and the notes of splits are right. -/
structure Proper (x : Outlook) : Prop where
  known : ∀ m, (x.dossier m).isSome ↔ m ∈ x.tracked
  nodup : x.tracked.Nodup
  honest : x.Honest

/-! ## Sweeps -/

theorem isSome_of_isStale (hstale : x.isStale now timeout m = true) : (x.dossier m).isSome := by
  obtain ⟨k, hk, -⟩ := (Option.any_eq_true _ _).1 hstale
  rw [hk]
  rfl

theorem replay_evictNews (hm : (x.dossier m).isSome) :
    replay x.register (x.evictNews m) = (x.evicted m).register := by
  obtain ⟨k, hk⟩ := Option.isSome_iff_exists.1 hm
  rw [evictNews, replay_append, replay_regardNews, hk]
  change (x.tracked.map _).filter _ = (x.tracked.filter (· != m)).map _
  rw [List.filter_map]
  refine List.map_congr_left fun a ha => ?_
  have hne : a ≠ m := by simpa using (List.mem_filter.1 ha).2
  have hsame : (x.evicted m).dossier a = x.dossier a := if_neg hne
  rw [nameOf, nameOf, hsame]

theorem replay_sweepFrom (now : Timestamp) (timeout : UInt32) (l : List MacAddress) (x : Outlook) :
    replay x.register (sweepFrom now timeout l x).2.1 = (sweepFrom now timeout l x).1.register := by
  induction l generalizing x with
  | nil => rfl
  | cons m l ih =>
    rw [sweepFrom]
    split
    · next hstale =>
      dsimp only
      rw [replay_append, replay_evictNews (isSome_of_isStale hstale)]
      exact ih _
    · exact ih x

def farewell (x : Outlook) (m : MacAddress) : Option Event :=
  (x.dossier m).map fun k => .evicted m k.profile.lastSeen

/-- What a sweep records: each device that goes, the newest first, and nothing else. -/
theorem sweepFrom_records (hx : x.Honest) (now : Timestamp) (timeout : UInt32)
    {l : List MacAddress} (hl : l.Nodup) :
    (sweepFrom now timeout l x).2.1 = (l.filter (x.isStale now timeout)).filterMap x.farewell ∧
      (sweepFrom now timeout l x).2.2 = (l.filter (x.isStale now timeout)).length := by
  induction l generalizing x with
  | nil => exact ⟨rfl, rfl⟩
  | cons m l ih =>
    obtain ⟨hm, hl⟩ := List.nodup_cons.1 hl
    rw [sweepFrom]
    split
    · next hstale =>
      obtain ⟨k, hk⟩ := Option.isSome_iff_exists.1 (isSome_of_isStale hstale)
      have hnews : x.evictNews m = [.evicted m k.profile.lastSeen] := by
        rw [evictNews, hx.regardNews_eq_nil, hk]
        rfl
      -- nobody else is touched by it
      have hothers : ∀ a ∈ l, (x.evicted m).dossier a = x.dossier a := fun a ha => if_neg <| by
        rintro rfl
        exact hm ha
      have hstays : l.filter ((x.evicted m).isStale now timeout) =
          l.filter (x.isStale now timeout) :=
        List.filter_congr fun a ha => by rw [isStale, isStale, hothers a ha]
      have htold : (l.filter (x.isStale now timeout)).filterMap (x.evicted m).farewell =
          (l.filter (x.isStale now timeout)).filterMap x.farewell :=
        List.filterMap_congr fun a ha => by
          rw [farewell, farewell, hothers a (List.mem_filter.1 ha).1]
      obtain ⟨hevents, hcount⟩ := ih (hx.evicted m) hl
      rw [hstays, htold] at hevents
      rw [hstays] at hcount
      have hfirst : x.farewell m = some (.evicted m k.profile.lastSeen) := by
        rw [farewell, hk, Option.map_some]
      rw [List.filter_cons_of_pos hstale, List.filterMap_cons_some hfirst, List.length_cons]
      dsimp only
      rw [hevents, hcount, hnews, List.singleton_append]
      exact ⟨rfl, rfl⟩
    · next hfresh =>
      rw [List.filter_cons_of_neg hfresh]
      exact ih hx hl

theorem Proper.swept_records (hx : x.Proper) (now : Timestamp) (timeout : UInt32) :
    (x.swept now timeout).events =
      (x.tracked.filter (x.isStale now timeout)).filterMap x.farewell ++
        if x.tracked.filter (x.isStale now timeout) = [] then []
        else [.swept (x.tracked.filter (x.isStale now timeout)).length
          (x.swept now timeout).state.tracked.length] := by
  obtain ⟨hevents, hcount⟩ := sweepFrom_records hx.honest now timeout hx.nodup
  rw [swept]
  dsimp only
  rw [hevents, hcount]
  cases x.tracked.filter (x.isStale now timeout) with
  | nil => rfl
  | cons m l => rw [if_neg (by simp), if_neg (by simp)]

theorem Proper.replay_swept (hx : x.Proper) (now : Timestamp) (timeout : UInt32) :
    replay x.register (x.swept now timeout).events = (x.swept now timeout).state.register := by
  have hreplay := replay_sweepFrom now timeout x.tracked x
  obtain ⟨hevents, hcount⟩ := sweepFrom_records hx.honest now timeout hx.nodup
  rw [swept]
  dsimp only
  split
  · next hnone =>
    rw [hcount] at hnone
    rw [hevents, List.eq_nil_of_length_eq_zero hnone] at hreplay
    exact hreplay
  · rw [replay_append, hreplay]
    rfl

/-! ## Frames -/

theorem nameOf_followed_of_ne (hm : m ≠ f.source) : (x.followed f).nameOf m = x.nameOf m := by
  have hsame : (x.followed f).dossier m = x.dossier m := if_neg hm
  rw [nameOf, nameOf, hsame]

theorem replay_moveNews (x : Outlook) (f : Frame) :
    replay ((x.followed f).tracked.map fun m => (m, (x.nameOf m).map NetworkName.text))
      (x.moveNews f) = (x.followed f).register := by
  have hname := x.nameOf_followed f
  rw [moveNews]
  cases hnew : x.newName f with
  | none =>
    rw [hnew, Option.none_or] at hname
    refine List.map_congr_left fun a _ => ?_
    by_cases ha : a = f.source
    · rw [ha, hname]
    · rw [nameOf_followed_of_ne ha]
  | some name =>
    rw [hnew, Option.some_or] at hname
    rw [Option.toList_some, List.flatMap_singleton, replay_append, replay_append, replay_regardNews]
    have hmade : ∀ l, replay l (if name ∈ x.names then [] else [.newNetwork name.text]) = l := by
      intro l
      split <;> rfl
    rw [hmade]
    change (List.map _ _).map _ = _
    rw [List.map_map]
    refine List.map_congr_left fun a _ => ?_
    by_cases ha : a = f.source
    · simp [ha, hname]
    · simp [ha, nameOf_followed_of_ne ha]

theorem Proper.replay_observeNews (hx : x.Proper) (f : Frame) :
    replay x.register (x.observeNews f) = (x.observed f).register := by
  have hcome : replay x.register
      (if f.source ∈ x.tracked then [] else [.newDevice f.source f.signal]) =
        (x.followed f).tracked.map fun m => (m, (x.nameOf m).map NetworkName.text) := by
    rw [followed]
    dsimp only
    split
    · rfl
    · next hnew =>
      -- nothing is known of a device that is new
      have hnone : x.dossier f.source = none := by
        rw [← hx.known] at hnew
        simpa using hnew
      have hname : x.nameOf f.source = none := by rw [nameOf, hnone, Option.bind_none]
      rw [List.map_cons, hname]
      rfl
  have hchannel : ∀ (channel : Option UInt8) l,
      replay l (channel.toList.map Event.newChannel) = l := by
    rintro (_ | _) l <;> rfl
  rw [observeNews, replay_append, hcome, replay_append, replay_append, replay_moveNews, hchannel,
    replay_regardNews]
  rfl

theorem Proper.replay_next (hx : x.Proper) {o : Operation} (ho : o ≠ .clear) :
    replay x.register (x.next o).events = (x.next o).state.register := by
  cases o with
  | observe f =>
    rw [next]
    cases x.verdict f with
    | none => exact hx.replay_observeNews f
    | some r =>
      cases r with
      | full supply => cases supply <;> rfl
      | _ => rfl
  | sweep now timeout => exact hx.replay_swept now timeout
  | expire now => exact hx.replay_swept now x.settings.timeout
  | purge => rfl
  | clear => exact absurd rfl ho

theorem level_observeNews (x : Outlook) (f : Frame) : ∀ e ∈ x.observeNews f, e.level ≠ .warn := by
  have hmoves : ∀ e ∈ x.moveNews f, e.level ≠ .warn := by
    rw [moveNews]
    cases x.newName f with
    | none => simp
    | some name =>
      rw [Option.toList_some, List.flatMap_singleton, List.forall_mem_append,
        List.forall_mem_append]
      refine ⟨⟨?_, level_regardNews _ _ _⟩, by simp [Event.level]⟩
      split <;> simp [Event.level]
  rw [observeNews, List.forall_mem_append, List.forall_mem_append, List.forall_mem_append]
  refine ⟨?_, ⟨hmoves, ?_⟩, level_regardNews _ _ _⟩
  · split <;> simp [Event.level]
  · intro e he
    obtain ⟨channel, -, rfl⟩ := List.mem_map.1 he
    simp [Event.level]

/-- A frame that is refused for want of room is warned of, once, and that is all that is recorded of
it; of other refusals there is no record, and no warning of a frame that is taken in. -/
theorem warns_observe (x : Outlook) (f : Frame) :
    match (x.next (.observe f)).answer with
    | .ok _ => ∀ e ∈ (x.next (.observe f)).events, e.level ≠ .warn
    | .error r => if r.kind = .outOfRoom then
        ∃ e, (x.next (.observe f)).events = [e] ∧ e.level = .warn
      else (x.next (.observe f)).events = [] := by
  rw [next]
  cases x.verdict f with
  | some r =>
    cases r with
    | full supply => cases supply <;> exact ⟨_, rfl, rfl⟩
    | _ => rfl
  | none => exact level_observeNews x f

end Outlook

/-- The devices of a list that are not in another, told by their addresses. -/
def gone (ds left : List Device) : List Device :=
  ds.filter fun d => d.address ∉ left.map Device.address

def Device.farewell (d : Device) : Event := .evicted d.address d.profile.lastSeen

namespace Survey

variable {s t : Survey} {c c' : Chronicle} {ds ds' : List Device} {d : Device}
  {events : List Event}

def register (s : Survey) (ds : List Device) : List (MacAddress × Option String) :=
  ds.map fun d => (d.address, (s.networkOf? d).map fun n => n.name.text)

theorem tracked_outlook (hs : s.Indexed c) (hds : s.allDevices = .ok ds) :
    (s.outlook c).tracked = ds.map Device.address := by
  obtain rfl := Except.ok.inj ((allDevices_eq hs).symm.trans hds)
  exact List.map_filterMap.symm

theorem at?_of_allDevices (hs : s.Indexed c) (hds : s.allDevices = .ok ds) (hd : d ∈ ds) :
    ∃ i, s.devices.at? i = some d := by
  obtain rfl := Except.ok.inj ((allDevices_eq hs).symm.trans hds)
  obtain ⟨i, -, hi⟩ := List.mem_filterMap.1 hd
  exact ⟨i, hi⟩

theorem register_outlook (hs : s.Indexed c) (hds : s.allDevices = .ok ds) :
    (s.outlook c).register = s.register ds := by
  rw [Outlook.register, tracked_outlook hs hds, List.map_map]
  refine List.map_congr_left fun d hd => ?_
  obtain ⟨i, hi⟩ := at?_of_allDevices hs hds hd
  rw [Function.comp_apply, nameOf_outlook hs hi, Option.map_map]
  rfl

theorem outlook_proper (hs : s.Indexed c) (hx : (s.outlook c).Honest) : (s.outlook c).Proper where
  known _ := isSome_dossier hs
  nodup := by
    refine (hs.roster.woven.spells ()).nodup.filterMap fun i j m hi hj => ?_
    have hfound := (hs.roster.tells m i).2 hi
    rw [(hs.roster.tells m j).2 hj] at hfound
    exact (Option.some.inj hfound).symm
  honest := hx

theorem farewell_outlook (hs : s.Indexed c) {i : Nat} (hd : s.devices.at? i = some d) :
    (s.outlook c).farewell d.address = some d.farewell := by
  rw [Outlook.farewell, dossier_outlook hs hd, dossierAt, hd]
  rfl

/-- The stale devices are those that are there before a sweep and not after it. -/
theorem stale_eq_gone {now : Timestamp} {timeout : UInt32} (hs : s.Indexed c) (ht : t.Indexed c')
    (hds : s.allDevices = .ok ds) (hds' : t.allDevices = .ok ds')
    (hswept : ((s.outlook c).swept now timeout).state = t.outlook c') :
    (s.outlook c).tracked.filter ((s.outlook c).isStale now timeout) =
      (gone ds ds').map Device.address := by
  obtain ⟨split, hleft⟩ := (s.outlook c).swept_eq now timeout
  rw [hswept] at hleft
  have hstays : ds'.map Device.address =
      (s.outlook c).tracked.filter fun m => !(s.outlook c).goes now timeout m :=
    (tracked_outlook ht hds').symm.trans (congrArg Outlook.tracked hleft)
  rw [gone, hstays, tracked_outlook hs hds, List.filter_map]
  refine congrArg _ (List.filter_congr fun d hd => ?_)
  have hmem : d.address ∈ (s.outlook c).tracked := by
    rw [tracked_outlook hs hds]
    exact List.mem_map_of_mem hd
  cases hstale : (s.outlook c).isStale now timeout d.address <;>
    simp [Outlook.goes, ← tracked_outlook hs hds, hmem, hstale]

theorem swept_records {now : Timestamp} {timeout : UInt32} {told : Except Refusal Tidings}
    (hs : s.Indexed c) (ht : t.Indexed c') (hx : (s.outlook c).Honest)
    (hds : s.allDevices = .ok ds) (hds' : t.allDevices = .ok ds')
    (hswept : (s.outlook c).swept now timeout = ⟨t.outlook c', events, told⟩) :
    events = (gone ds ds').map Device.farewell ++
      if gone ds ds' = [] then [] else [.swept (gone ds ds').length ds'.length] := by
  have hrecords := (outlook_proper hs hx).swept_records now timeout
  have hgone := stale_eq_gone hs ht hds hds' (congrArg Outcome.state hswept)
  have htold : ((gone ds ds').map Device.address).filterMap (s.outlook c).farewell =
      (gone ds ds').map Device.farewell := by
    rw [List.filterMap_map, ← List.filterMap_eq_map]
    refine List.filterMap_congr fun d hd => ?_
    obtain ⟨i, hi⟩ := at?_of_allDevices hs hds (List.mem_filter.1 hd).1
    exact farewell_outlook hs hi
  rw [hswept, hgone, htold] at hrecords
  simpa only [tracked_outlook ht hds', List.map_eq_nil_iff, List.length_map] using hrecords

theorem Becomes.replay_eq {o : Operation} {answer : Except Refusal Reply}
    (m : s.Becomes c o t c' events answer) (hs : s.Sound c) (ht : t.Sound c')
    (hx : (s.outlook c).Honest) (ho : o ≠ .clear) :
    replay (s.outlook c).register events = (t.outlook c').register := by
  have hnext := (outlook_proper hs.toIndexed hx).replay_next ho
  rw [m.outlook hs ht] at hnext
  exact hnext

end Survey

/-! ## Runs -/

theorem play_replay (settings : Settings) {ops : List Operation} (hops : .clear ∉ ops) :
    ∃ h c, play settings ops = .ok h ∧ h.survey.Sound c ∧ (h.survey.outlook c).Honest ∧
      replay [] h.log = (h.survey.outlook c).register := by
  induction ops using List.reverseRecOn with
  | nil =>
    refine ⟨.new settings, ⟨[], [], []⟩, rfl, Survey.new_sound settings,
      Survey.new_honest settings, ?_⟩
    change [] = ((Survey.new settings).outlook ⟨[], [], []⟩).register
    rw [Survey.new_outlook]
    rfl
  | append_singleton ops o ih =>
    rw [List.mem_append, not_or, List.mem_singleton] at hops
    obtain ⟨h, c, hplay, hs, hx, hlog⟩ := ih hops.1
    obtain ⟨t, c', events, answer, hrun, hbecomes, ht⟩ := Survey.act_run hs o
    refine ⟨_, c', play_concat hplay hrun, ht, hbecomes.honest hs ht hx, ?_⟩
    rw [History.log_cons h.survey, replay_append, hlog]
    exact hbecomes.replay_eq hs ht hx (Ne.symm hops.2)

/-- After every run in which the devices were never forgotten all at once, the log tells the
devices, the newest first, with the names of their networks, and it does so again after the
operation that comes next. A sweep records the devices that it takes away, the newest first, and
then, if there are any, how many they were and how many are left; it records nothing else. A frame
makes a warning exactly if it is refused for want of room, and then that is the only record of it;
if it is refused for another reason there is none. -/
theorem play_journal (settings : Settings) (before : List Operation) (o : Operation)
    (hbefore : .clear ∉ before) (ho : o ≠ .clear) :
    ∃ h t events answer ds ds', play settings before = .ok h ∧
      o.act.run h.survey = .ok ⟨t, events, answer⟩ ∧
      h.survey.allDevices = .ok ds ∧ t.allDevices = .ok ds' ∧
      replay [] h.log = h.survey.register ds ∧ replay [] (h.log ++ events) = t.register ds' ∧
      ((∃ now timeout, o = .sweep now timeout ∨ o = .expire now) →
        events = (gone ds ds').map Device.farewell ++
          if gone ds ds' = [] then [] else [.swept (gone ds ds').length ds'.length]) ∧
      ∀ f, o = .observe f →
        match answer with
        | .ok _ => ∀ e ∈ events, e.level ≠ .warn
        | .error r =>
          if r.kind = .outOfRoom then ∃ e, events = [e] ∧ e.level = .warn else events = [] := by
  obtain ⟨h, c, hplay, hs, hx, hlog⟩ := play_replay settings hbefore
  obtain ⟨t, c', events, answer, hrun, hbecomes, ht⟩ := Survey.act_run hs o
  have hds := Survey.allDevices_eq hs.toIndexed
  have hds' := Survey.allDevices_eq ht.toIndexed
  have hnext := hbecomes.outlook hs ht
  refine ⟨h, t, events, answer, _, _, hplay, hrun, hds, hds', ?_, ?_, fun hsweep => ?_,
    fun f hf => ?_⟩
  · rw [hlog, Survey.register_outlook hs.toIndexed hds]
  · rw [replay_append, hlog, hbecomes.replay_eq hs ht hx ho,
      Survey.register_outlook ht.toIndexed hds']
  · obtain ⟨now, timeout, rfl | rfl⟩ := hsweep
    · exact Survey.swept_records hs.toIndexed ht.toIndexed hx hds hds' hnext
    · exact Survey.swept_records hs.toIndexed ht.toIndexed hx hds hds' hnext
  · subst hf
    have hwarns := (h.survey.outlook c).warns_observe f
    rw [hnext] at hwarns
    cases answer with
    | ok reply => exact hwarns
    | error r => exact hwarns

def twoHeard : List Operation :=
  [.observe { Frame.heardAt ⟨2, 0, 0, 0, 0, 1⟩ 0 with name := some ⟨"lab", by decide⟩ },
    .observe (.heardAt ⟨2, 0, 0, 0, 0, 2⟩ 30)]

theorem play_journal_twoHeard :
    ∃ h t events answer ds ds', play .default twoHeard = .ok h ∧
      (Operation.sweep 61 60).act.run h.survey = .ok ⟨t, events, answer⟩ ∧
      h.survey.allDevices = .ok ds ∧ t.allDevices = .ok ds' ∧
      h.survey.register ds = [(⟨2, 0, 0, 0, 0, 2⟩, none), (⟨2, 0, 0, 0, 0, 1⟩, some "lab")] ∧
      t.register ds' = [(⟨2, 0, 0, 0, 0, 2⟩, none)] ∧
      events = [.evicted ⟨2, 0, 0, 0, 0, 1⟩ 0, .swept 1 1] := by
  obtain ⟨h, t, events, answer, ds, ds', hplay, hrun, hds, hds', hlog, hlog', -⟩ :=
    play_journal .default twoHeard (.sweep 61 60) (by simp [twoHeard]) (by simp)
  have hfirst : (play .default twoHeard).toOption.map (fun h => replay [] h.log) =
      some [(⟨2, 0, 0, 0, 0, 2⟩, none), (⟨2, 0, 0, 0, 0, 1⟩, some "lab")] := by
    decide +kernel
  have hsecond : (play .default (twoHeard ++ [.sweep 61 60])).toOption.map
      (fun h => (replay [] h.log, h.steps.head?.map Step.events)) =
        some ([(⟨2, 0, 0, 0, 0, 2⟩, none)],
          some [.evicted ⟨2, 0, 0, 0, 0, 1⟩ 0, .swept 1 1]) := by
    decide +kernel
  rw [hplay, Action.toOption_ok, Option.map_some, hlog] at hfirst
  rw [play_concat hplay hrun, Action.toOption_ok, Option.map_some, History.log_cons h.survey,
    hlog'] at hsecond
  obtain ⟨hregister, hevents⟩ := Prod.mk.inj (Option.some.inj hsecond)
  exact ⟨h, t, events, answer, ds, ds', hplay, hrun, hds, hds', Option.some.inj hfirst, hregister,
    Option.some.inj hevents⟩

end AirSurvey
