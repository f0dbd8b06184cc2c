import AirSurvey.Proofs.Survey.Survivors
import AirSurvey.Proofs.Survey.Tracking
import AirSurvey.Proofs.Survey.Verdict

set_option autoImplicit false

/-!
The life of a device as a run tells it: the frames that were taken in from its address since a
device with that address was last dropped. What a survey knows of a device is the frames of its life
taken in one by one; what happened to other devices meanwhile does not show.
-/

namespace AirSurvey

namespace Step

def taken? (x : Step) : Option Frame :=
  match x.operation, x.answer with
  | .observe f, .ok _ => some f
  | _, _ => none

def takenFrom? (x : Step) (m : MacAddress) : Option Frame :=
  x.taken?.filter fun f => f.source == m

theorem takenFrom?_accepted (f : Frame) (events : List Event) (r : Reply) (m : MacAddress) :
    (Step.mk (.observe f) events (.ok r)).takenFrom? m = if f.source = m then some f else none := by
  simp [takenFrom?, taken?, Option.filter_some]

end Step

/-- The frames that were taken in from `m` since a device with that address was last dropped, the
latest first. -/
def lifeOf (steps : List Step) (m : MacAddress) : List Frame :=
  (steps.takeWhile fun x => !x.drops m).filterMap fun x => x.takenFrom? m

theorem lifeOf_cons (x : Step) (steps : List Step) (m : MacAddress) :
    lifeOf (x :: steps) m =
      if x.drops m then [] else (x.takenFrom? m).toList ++ lifeOf steps m := by
  cases hdrops : x.drops m with
  | true => simp [lifeOf, hdrops]
  | false => cases htaken : x.takenFrom? m <;> simp [lifeOf, hdrops, htaken]

/-- How many steps ago something happened last. Whether it happened in a step is told from the step
and from those before it. -/
def since (happens : Step → List Step → Bool) : List Step → Nat
  | [] => 0
  | x :: earlier => if happens x earlier then 0 else since happens earlier + 1

theorem since_lt_length {happens : Step → List Step → Bool} {P : List Step → Prop}
    (hnew : ¬ P []) (hstep : ∀ x earlier, P (x :: earlier) → happens x earlier = true ∨ P earlier)
    {steps : List Step} (h : P steps) :
    since happens steps < steps.length := by
  induction steps with
  | nil => exact absurd h hnew
  | cons x earlier ih =>
    rw [since, List.length_cons]
    split
    · exact Nat.succ_pos _
    · next hnot => exact Nat.succ_lt_succ (ih ((hstep x earlier h).resolve_left hnot))

section order

variable {κ : Type} {happens : κ → Step → List Step → Bool} {x : Step} {steps : List Step}
  {l l' : List κ}

/-- The keys are in the order in which something happened to them last, the longest ago first. -/
def InOrder (happens : κ → Step → List Step → Bool) (steps : List Step) (l : List κ) : Prop :=
  l.Pairwise fun k k' => since (happens k') steps < since (happens k) steps

theorem InOrder.nodup (h : InOrder happens steps l) : l.Nodup :=
  List.Pairwise.imp (fun hlt e => by simp [e] at hlt) h

/-- A step takes some keys out of an order. One that something happens to in the step goes to the
end of it. -/
def Step.Reorders (happens : κ → Step → List Step → Bool) (x : Step) (earlier : List Step)
    (l l' : List κ) : Prop :=
  ∃ (keep : κ → Bool) (new : Option κ), l' = l.filter keep ++ new.toList ∧
    (∀ k ∈ l, keep k = true → happens k x earlier = false) ∧ ∀ k ∈ new, happens k x earlier = true

theorem Step.Reorders.thins (keep : κ → Bool) (h : ∀ k ∈ l, happens k x steps = false) :
    x.Reorders happens steps l (l.filter keep) :=
  ⟨keep, none, by simp, fun k hk _ => h k hk, by simp⟩

theorem Step.Reorders.same (h : ∀ k ∈ l, happens k x steps = false) :
    x.Reorders happens steps l l := by
  simpa using Reorders.thins (fun _ => true) h

theorem InOrder.step (h : InOrder happens steps l) (hx : x.Reorders happens steps l l') :
    InOrder happens (x :: steps) l' := by
  obtain ⟨keep, new, rfl, hold, hnew⟩ := hx
  have hlater : ∀ k ∈ l.filter keep, since (happens k) (x :: steps) = since (happens k) steps + 1 := by
    intro k hk
    obtain ⟨hl, hkeep⟩ := List.mem_filter.1 hk
    simp [since, hold k hl hkeep]
  have hnow : ∀ k ∈ new, since (happens k) (x :: steps) = 0 := fun k hk => by simp [since, hnew k hk]
  rw [InOrder, List.pairwise_append]
  refine ⟨(List.Pairwise.filter keep h).imp_of_mem fun {k k'} hk hk' hlt => ?_, ?_,
    fun k hk k' hk' => ?_⟩
  · rw [hlater k hk, hlater k' hk']
    omega
  · cases new with
    | none => exact .nil
    | some k => exact List.pairwise_singleton _ k
  · rw [hlater k hk, hnow k' (by simpa using hk')]
    omega

end order

structure Dossier where
  profile : Profile
  name : Option NetworkName
  channels : List UInt8

namespace Dossier

/-- What is known of a device once a frame is taken in from it, told from what was known before. -/
def follow (weight : Float32) (f : Frame) (known : Option Dossier) : Dossier where
  profile := (known.map fun x => x.profile.absorb f weight).getD (.ofFrame f weight)
  name := f.visibleName.or (known.bind name)
  channels := (known.map channels).getD [] ++
    (f.newChannel ((known.map channels).getD [])).toList

def ofLife (weight : Float32) : List Frame → Option Dossier
  | [] => none
  | f :: earlier => some (follow weight f (ofLife weight earlier))

end Dossier

namespace ChannelTable.Joined

variable {t u : ChannelTable} {chains : Nat → Chain Presence.byDevice} {order : List Nat}
  {i m k : Nat} {channel : UInt8}

theorem stays (hj : t.Joined i channel m k u) (h : Hearing t chains order) {l : Nat}
    (hl : l ∈ order) : u.deviceOf l = t.deviceOf l ∧ u.channelAt l = t.channelAt l := by
  have hne : l ≠ m := by
    rintro rfl
    simpa [hj.vacant] using (h.mem l).1 hl
  refine ⟨by rw [hj.deviceOf, Function.update_of_ne hne], ?_⟩
  rw [channelAt, channelAt, hj.entryOf, Function.update_of_ne hne, hj.numbers]
  cases hk : t.entryOf l with
  | none => rfl
  | some k =>
    split
    · rfl
    · exact List.getElem?_append_left (h.entry l k hk)

theorem begins (hj : t.Joined i channel m k u) :
    u.deviceOf m = some i ∧ u.channelAt m = some channel := by
  rw [channelAt, hj.deviceOf, hj.entryOf, Function.update_self, Function.update_self]
  exact ⟨rfl, hj.number⟩

theorem channelsAt (hj : t.Joined i channel m k u) (h : Hearing t chains order) (j : Nat) :
    u.channelsAt (order ++ [m]) j =
      if j = i then t.channelsAt order i ++ [channel] else t.channelsAt order j := by
  have hsame : ∀ j, (AirSurvey.picked t.deviceOf order j).filterMap u.channelAt =
      t.channelsAt order j :=
    fun j => List.filterMap_congr fun l hl => (hj.stays h (mem_picked.1 hl).1).2
  rw [ChannelTable.channelsAt, picked_append_new (fun l hl => (hj.stays h hl).1) hj.begins.1]
  by_cases hji : j = i
  · subst hji
    simp [hsame, hj.begins.2]
  · simp [hji, hsame]

end ChannelTable.Joined

theorem NetworkTable.map_name_get? {t u : NetworkTable}
    (hnames : u.pool.view Network.name = t.pool.view Network.name) (h : Handle) :
    (u.get? h).map Network.name = (t.get? h).map Network.name := by
  rw [get?, get?, ← Pool.get?_view, hnames, Pool.get?_view]

namespace Survey

def dossierAt (s : Survey) (c : Chronicle) (i : Nat) : Option Dossier :=
  (s.devices.at? i).map fun d =>
    ⟨d.profile, (s.networkOf? d).map Network.name, s.channels.channelsAt c.heard i⟩

def dossier (s : Survey) (c : Chronicle) (m : MacAddress) : Option Dossier :=
  (s.addresses.find? m).bind (s.dossierAt c)

variable {s t : Survey} {c c' : Chronicle} {f : Frame} {i : Nat} {d : Device} {events : List Event}

theorem map_name_networkOf? (s : Survey) (d : Device) :
    (s.networkOf? d).map Network.name =
      d.network.bind fun h => (s.networks.get? h).map Network.name := by
  rw [networkOf?, Option.map_bind]
  rfl

theorem dossierAt_eq (s : Survey) (c : Chronicle) (i : Nat) :
    s.dossierAt c i = ((s.devices.at? i).map fun d => (d.profile, d.network)).map fun x =>
      ⟨x.1, x.2.bind fun h => (s.networks.get? h).map Network.name,
        s.channels.channelsAt c.heard i⟩ := by
  simp only [dossierAt, map_name_networkOf?, Option.map_map, Function.comp_def]

theorem dossier_of_at? (hs : s.Indexed c) (hd : s.devices.at? i = some d) :
    s.dossier c d.address = s.dossierAt c i := by
  rw [dossier, (hs.roster.found d.address i).2 ⟨d, hd, rfl⟩, Option.bind_some]

/-! ## What following a frame does -/

theorem FollowsName.dossierAt (m : s.FollowsName c f i d t c' events) (hs : s.Indexed c)
    (hd : s.devices.at? i = some d) (j : Nat) :
    t.dossierAt c' j = (s.dossierAt c j).map fun x =>
      if j = i then { x with name := f.visibleName.or x.name } else x := by
  cases m with
  | stays hstays =>
    by_cases hj : j = i
    · subst hj
      have hname : f.visibleName.or ((s.networkOf? d).map Network.name) =
          (s.networkOf? d).map Network.name := by
        cases hvisible : f.visibleName with
        | none => rfl
        | some name =>
          obtain ⟨n, hn, rfl⟩ := hstays name hvisible
          simp [hn]
      simp [Survey.dossierAt, hd, hname]
    · simp [hj]
  | @moves name h q u hname hother hmoved =>
    have hview := Pool.at?_map_of_view_eq
      (Pool.view_eq_comp hmoved.devices fun d => (d.profile, d.network)) j
    have hview : (q.at? j).map (fun d => (d.profile, d.network)) =
        ((s.devices.modifyAt i fun d => { d with network := some h }).at? j).map
          fun d => (d.profile, d.network) := hview
    rw [Pool.at?_modifyAt] at hview
    rw [dossierAt_eq, hview, dossierAt_eq]
    by_cases hj : j = i
    · subst hj
      obtain ⟨n, hn, rfl⟩ := hmoved.named
      simp [hd, hn, hname]
    · rw [if_neg fun e => hj e.symm]
      cases he : s.devices.at? j with
      | none => rfl
      | some e =>
        -- A network that a device names is still there, under its name.
        have hkept : (e.network.bind fun k => (u.get? k).map Network.name) =
            e.network.bind fun k => (s.networks.get? k).map Network.name := by
          cases hh : e.network with
          | none => rfl
          | some k =>
            obtain ⟨n, hn⟩ := hs.exists_network he hh
            obtain ⟨n', hn', hnn⟩ := hmoved.names hn
            simp [hn, hn', hnn]
        simp [hj, hkept]

theorem FollowsChannel.dossierAt (m : s.FollowsChannel c f i t c' events) (hs : s.Indexed c)
    (j : Nat) :
    t.dossierAt c' j = (s.dossierAt c j).map fun x =>
      if j = i then { x with channels := x.channels ++ (f.newChannel x.channels).toList } else x := by
  cases m with
  | stays hstays =>
    by_cases hj : j = i
    · subst hj
      have hnone : f.newChannel (s.channels.channelsAt c.heard j) = none := by
        rw [Frame.newChannel, Option.filter_eq_none_iff]
        exact fun channel hchannel => by simpa using hstays channel hchannel
      cases hd : s.devices.at? j <;> simp [Survey.dossierAt, hd, hnone]
    · simp [hj]
  | @tunes channel l k b u hchannel hother hjoined hhearing =>
    have hnew : f.newChannel (s.channels.channelsAt c.heard i) = some channel := by
      rw [Frame.newChannel, hchannel, Option.filter_some, if_pos (by simpa using hother)]
    simp only [Survey.dossierAt, hjoined.channelsAt hs.hearing, Pool.at?_modifyAt]
    by_cases hj : j = i
    · subst hj
      cases hd : s.devices.at? j <;> simp [hnew, networkOf?]
    · have hij : ¬ i = j := fun e => hj e.symm
      cases hd : s.devices.at? j <;> simp [hj, hij, networkOf?]

theorem dossierAt_aimed (s : Survey) (c : Chronicle) (i : Nat) (d : Device) (j : Nat) :
    (s.aimed i d).dossierAt c j = s.dossierAt c j := by
  simp only [Survey.dossierAt, aimed, Pool.at?_modifyAt]
  split
  · cases s.devices.at? j <;> rfl
  · rfl

theorem LooksAnew.dossierAt (m : s.LooksAnew c d t events) (j : Nat) :
    t.dossierAt c j = s.dossierAt c j := by
  cases m with
  | outside => rfl
  | @inside h isSplit =>
    have hnames := NetworkTable.map_name_get? (t := s.networks)
      (u := ⟨s.networks.pool.modifyAt h.index (.marked isSplit)⟩)
      (Pool.view_modifyAt_of_eq _ _ _ _ fun _ => rfl)
    simp only [dossierAt_eq, hnames]

theorem Settles.dossierAt (m : s.Settles c f i d t c' events) (hs : s.Indexed c)
    (hd : s.devices.at? i = some d) (j : Nat) :
    t.dossierAt c' j = (s.dossierAt c j).map fun x =>
      if j = i then ⟨x.profile, f.visibleName.or x.name,
        x.channels ++ (f.newChannel x.channels).toList⟩ else x := by
  obtain ⟨hname, hchannel, -, hlook⟩ := m
  rw [hlook.dossierAt, dossierAt_aimed, hchannel.dossierAt (hname.indexed hs),
    hname.dossierAt hs hd, Option.map_map]
  refine congrArg (Option.map · (s.dossierAt c j)) (funext fun x => ?_)
  by_cases hj : j = i <;> simp [hj]

/-! ## What a frame's arrival does -/

theorem Indexed.channelsAt_vacant (hs : s.Indexed c) (hi : s.devices.at? i = none) :
    s.channels.channelsAt c.heard i = [] := by
  have hnone : picked s.channels.deviceOf c.heard i = [] := by
    refine List.filter_eq_nil_iff.2 fun m _ hm => ?_
    simpa [hi] using hs.owner m i (by simpa using hm)
  rw [ChannelTable.channelsAt, hnone]
  rfl

theorem Arrives.dossierAt (m : s.Arrives c f i d t c' events) (hs : s.Indexed c) (j : Nat) :
    t.dossierAt c' j =
      if j = i then some ⟨((s.dossierAt c i).map fun x =>
          x.profile.absorb f s.settings.weight).getD (.ofFrame f s.settings.weight),
        (s.dossierAt c i).bind Dossier.name, ((s.dossierAt c i).map Dossier.channels).getD []⟩
      else s.dossierAt c j := by
  cases m with
  | @revisits _ e hfind he hclock =>
    simp only [Survey.dossierAt, Pool.at?_modifyAt]
    by_cases hj : j = i
    · subst hj
      simp [he, networkOf?]
    · have hij : ¬ i = j := fun e => hj e.symm
      simp [hj, hij, networkOf?]
  | @admits h _ q r y ages hfind ht hview hy hdq =>
    have hface : (q.at? j).map (fun d => (d.profile, d.network)) =
        (r.at? j).map fun d => (d.profile, d.network) :=
      Pool.at?_map_of_view_eq (Pool.view_eq_comp hview fun d => (d.profile, d.network)) j
    have hvacant : s.dossierAt c h.index = none := by simp [Survey.dossierAt, ht.vacant]
    rw [dossierAt_eq, hface, ht.at?, hvacant]
    by_cases hj : j = h.index
    · subst hj
      simp [Device.ofFrame, hs.channelsAt_vacant ht.vacant]
    · rw [if_neg fun e => hj e.symm, if_neg hj, dossierAt_eq]

theorem Arrives.find? (m : s.Arrives c f i d t c' events) (a : MacAddress) :
    t.addresses.find? a = if a = f.source then some i else s.addresses.find? a := by
  cases m with
  | revisits hfind =>
    split
    · next ha => rw [ha, hfind]
    · rfl
  | admits _ _ _ hy => exact AddressIndex.find?_insert? hy a

theorem Arrives.dossier_source (m : s.Arrives c f i d t c' events) :
    s.dossier c f.source = s.dossierAt c i := by
  cases m with
  | revisits hfind => rw [dossier, hfind, Option.bind_some]
  | admits hfind ht => simp [dossier, hfind, Survey.dossierAt, ht.vacant]

theorem Arrives.known (m : s.Arrives c f i d t c' events) (hs : s.Indexed c) :
    (t.networkOf? d).map Network.name = (s.dossier c f.source).bind Dossier.name ∧
      t.channels.channelsAt c'.heard i =
        ((s.dossier c f.source).map Dossier.channels).getD [] := by
  have hslot := m.dossierAt hs i
  rw [if_pos rfl, Survey.dossierAt, m.device, Option.map_some, Option.some.injEq,
    ← m.dossier_source] at hslot
  exact ⟨congrArg Dossier.name hslot, congrArg Dossier.channels hslot⟩

theorem dossier_of_observed {s₁ : Survey} {c₁ : Chronicle} {e₁ e₂ : List Event}
    (harrives : s.Arrives c f i d s₁ c₁ e₁) (hsettles : s₁.Settles c₁ f i d t c' e₂)
    (hs : s.Indexed c) (hs₁ : s₁.Indexed c₁) (a : MacAddress) :
    t.dossier c' a =
      if a = f.source then some (.follow s.settings.weight f (s.dossier c a))
      else s.dossier c a := by
  have hslot : ∀ j, t.dossierAt c' j =
      if j = i then some (.follow s.settings.weight f (s.dossierAt c i))
      else s.dossierAt c j := by
    intro j
    rw [hsettles.dossierAt hs₁ harrives.device, harrives.dossierAt hs]
    split
    · rfl
    · exact Option.map_id'
  rw [dossier, hsettles.frame.2.1, harrives.find?]
  split
  · next ha => rw [Option.bind_some, hslot, if_pos rfl, ha, harrives.dossier_source]
  · next ha =>
    rw [dossier]
    cases hfind : s.addresses.find? a with
    | none => rfl
    | some j =>
      -- The slot of the sender has the sender's address, and so another than `a`.
      have hj : j ≠ i := by
        rintro rfl
        have hother := (hs₁.roster.tells a j).1 (by rw [harrives.find?, if_neg ha, hfind])
        have hsource := (hs₁.roster.tells f.source j).1 (by rw [harrives.find?, if_pos rfl])
        exact ha (Option.some.inj (hother.symm.trans hsource))
      rw [Option.bind_some, Option.bind_some, hslot, if_neg hj]

/-! ## What an operation does -/

theorem Thinned.dossierAt {gone : Nat → Bool} {coat : Device → Device} (h : Thinned gone coat s t)
    (hcoat : ∀ d, (coat d).profile = d.profile ∧ (coat d).network = d.network) (j : Nat) :
    t.dossierAt (c.without s.channels gone) j = if gone j then none else s.dossierAt c j := by
  have hcore := congrArg (Option.map fun d : Device => (d.profile, d.network)) (h.core j)
  rw [Option.map_map] at hcore
  rw [dossierAt_eq, dossierAt_eq, show (t.devices.at? j).map (fun d => (d.profile, d.network)) = _
    from hcore]
  cases hj : gone j with
  | true => rfl
  | false =>
    rw [funext (NetworkTable.map_name_get? h.names), h.channelsAt hj]
    simp [Function.comp_def, hcoat]

theorem Sweeps.dossier {now : Timestamp} {timeout : UInt32} {u : Survey} {n : Nat}
    (m : Sweeps now timeout c.ages s c u c' events n) (hs : s.Sound c) (hu : u.Indexed c')
    (a : MacAddress) :
    (u.swept c' n).dossier c' a = if a ∈ leavers events then none else s.dossier c a := by
  obtain ⟨hthinned, hchronicle⟩ := m.swept_thinned hs hu
  have hfind := hthinned.find? (fun _ => rfl) hs.toIndexed (m.swept_sound hs hu).toIndexed a
  have hslot := hthinned.dossierAt (c := c) fun _ => ⟨rfl, rfl⟩
  rw [← hchronicle] at hslot
  rw [Survey.dossier, hfind, Survey.dossier]
  cases hj : s.addresses.find? a with
  | none => simp
  | some j =>
    have hleaver := m.mem_leavers hs.toIndexed ((hs.roster.tells a j).1 hj)
    cases hgone : s.stale now timeout j <;> simp [hleaver, hgone, Option.filter_some, hslot]

theorem dossierAt_purge (hs : s.Indexed c) (j : Nat) :
    s.purgeNetworks.2.dossierAt c j = s.dossierAt c j := by
  simp only [Survey.dossierAt, map_name_networkOf?]
  refine Option.map_congr fun e he => ?_
  have hkept : (e.network.bind fun h => (s.networks.purge.2.get? h).map Network.name) =
      e.network.bind fun h => (s.networks.get? h).map Network.name := by
    cases hh : e.network with
    | none => rfl
    | some h =>
      have hnot := purge_keeps hs he hh
      rw [Option.bind_some, Option.bind_some, NetworkTable.get?, NetworkTable.get?,
        NetworkTable.purge, Pool.get?_eq, Pool.handleAt?_foldl_release, Pool.at?_foldl_release,
        if_neg hnot, if_neg hnot, ← Pool.get?_eq]
  rw [← hkept]
  rfl

theorem Becomes.settings {o : Operation} {answer : Except Refusal Reply}
    (m : s.Becomes c o t c' events answer) (hs : s.Sound c) : t.settings = s.settings := by
  cases m with
  | refuses => rfl
  | observes _ harrives _ hsettles => exact hsettles.frame.1.trans harrives.frame.1
  | sweeps _ hsweeps hindexed => exact (hsweeps.swept_thinned hs hindexed).1.settings
  | purges => rfl
  | clears => rfl

/-- What is known of a device once something was done: nothing if it was dropped, what a frame that
was taken in from it adds to what was known, and else what was known. -/
theorem Becomes.dossier {o : Operation} {answer : Except Refusal Reply}
    (m : s.Becomes c o t c' events answer) (hs : s.Sound c) (a : MacAddress) :
    t.dossier c' a =
      if (Step.mk o events answer).drops a then none
      else match (Step.mk o events answer).takenFrom? a with
        | none => s.dossier c a
        | some f => some (.follow s.settings.weight f (s.dossier c a)) := by
  cases m with
  | @refuses f r =>
    have hleave := (Quiet.refusalNews f r).2
    simp [Step.drops, Step.takenFrom?, Step.taken?, hleave]
  | @observes f i d e s₁ _ c₁ _ e₁ e₂ _ harrives hindexed hsettles =>
    have hleave : leavers (e₁ ++ e₂) = [] := by
      rw [leavers_append, hsettles.quiet.2, (harrives.addressesByAge hs.toIndexed).2.2]
      rfl
    rw [dossier_of_observed harrives hsettles hs.toIndexed hindexed, Step.takenFrom?_accepted]
    by_cases ha : f.source = a
    · simp [Step.drops, hleave, ha]
    · have ha' : ¬ a = f.source := fun e => ha e.symm
      simp [Step.drops, hleave, ha, ha']
  | @sweeps o now timeout u _ events n hoperation hsweeps hindexed =>
    rw [hsweeps.dossier hs hindexed]
    obtain rfl | ⟨rfl, -⟩ := hoperation <;>
      simp [Step.drops, Step.takenFrom?, Step.taken?, hsweeps.swept_records.2]
  | purges =>
    have hslots : s.purgeNetworks.2.dossierAt c = s.dossierAt c :=
      funext (dossierAt_purge hs.toIndexed)
    simp [Step.drops, Step.takenFrom?, Step.taken?, leavers, Survey.dossier, hslots]
    rfl
  | clears => rfl

end Survey

namespace History

variable {h : History} {c c' : Chronicle}

def Told (h : History) (c : Chronicle) : Prop :=
  ∀ m, h.survey.dossier c m =
    Dossier.ofLife h.survey.settings.weight (lifeOf h.steps m)

theorem Told.new (settings : Settings) : (new settings).Told ⟨[], [], []⟩ := fun _ => rfl

/-- What the frames of the life of a tracked device tell is what the survey knows of it. -/
theorem Told.ofLife (hh : h.Told c) (hs : h.survey.Indexed c) {i : Nat} {d : Device}
    (hd : h.survey.devices.at? i = some d) :
    Dossier.ofLife h.survey.settings.weight (lifeOf h.steps d.address) =
      some ⟨d.profile, (h.survey.networkOf? d).map Network.name,
        h.survey.channels.channelsAt c.heard i⟩ := by
  rw [← hh, Survey.dossier_of_at? hs hd, Survey.dossierAt, hd, Option.map_some]

theorem Told.step {o : Operation} {t : Survey} {events : List Event}
    {answer : Except Refusal Reply} (hh : h.Told c) (hs : h.survey.Sound c)
    (m : h.survey.Becomes c o t c' events answer) :
    Told ⟨t, ⟨o, events, answer⟩ :: h.steps⟩ c' := by
  intro a
  rw [m.dossier hs, lifeOf_cons, m.settings hs, hh a]
  split
  · rfl
  · cases (Step.mk o events answer).takenFrom? a <;> rfl

end History

end AirSurvey
