import AirSurvey.Proofs.Survey.Membership

set_option autoImplicit false

/-!
Who was heard where after a run. A device is on the channels of the frames of its life, each as it
first appeared; a channel lists its devices by when they first appeared there.
-/

namespace AirSurvey

/-- The channels of frames, the latest of which is first, in the order in which they first
appeared. -/
def firstHeard (frames : List Frame) : List UInt8 :=
  (frames.reverse.filterMap Frame.channel).eraseDups

theorem firstHeard_cons (f : Frame) (frames : List Frame) :
    firstHeard (f :: frames) = firstHeard frames ++ (f.newChannel (firstHeard frames)).toList := by
  have hmem : ∀ channel, (firstHeard frames).contains channel =
      (frames.reverse.filterMap Frame.channel).contains channel := by
    intro channel
    rw [Bool.eq_iff_iff, List.contains_iff_mem, List.contains_iff_mem]
    exact List.mem_eraseDups
  rw [firstHeard, List.reverse_cons, List.filterMap_append, List.eraseDups_append]
  refine congrArg (firstHeard frames ++ ·) ?_
  rw [Frame.newChannel]
  cases hchannel : f.channel with
  | none => simp [hchannel]
  | some channel =>
    rw [List.filterMap_cons_some hchannel, List.filterMap_nil, List.cons_removeAll, ← hmem]
    by_cases hc : channel ∈ firstHeard frames <;>
      simp [hc, Option.filter_some, List.removeAll, List.eraseDups_cons]

theorem mem_firstHeard {channel : UInt8} {frames : List Frame} :
    channel ∈ firstHeard frames ↔ ∃ f ∈ frames, f.channel = some channel := by
  simp [firstHeard, List.mem_eraseDups]

theorem firstHeard_eq_nil_iff {frames : List Frame} :
    firstHeard frames = [] ↔ ∀ f ∈ frames, f.channel = none := by
  rw [List.eq_nil_iff_forall_not_mem]
  simp only [mem_firstHeard, not_exists, not_and, Option.eq_none_iff_forall_ne_some]
  exact forall_comm.trans (forall_congr' fun _ => forall_comm)

def announced : List Frame → Option UInt8
  | [] => none
  | f :: earlier => Profile.nextChannel (announced earlier) f

theorem Profile.nextChannel_eq_none_iff {known : Option UInt8} {f : Frame} :
    nextChannel known f = none ↔ known = none ∧ f.channel = none := by
  unfold nextChannel
  split <;> simp [Option.or_eq_none_iff, and_comm]

theorem Profile.of_nextChannel {known : Option UInt8} {f : Frame} {channel : UInt8}
    (h : nextChannel known f = some channel) : known = some channel ∨ f.channel = some channel := by
  unfold nextChannel at h
  split at h
  · exact (Option.or_eq_some_iff.1 h).symm.imp And.right id
  · exact (Option.or_eq_some_iff.1 h).imp id And.right

theorem mem_of_announced {frames : List Frame} {channel : UInt8}
    (h : announced frames = some channel) : channel ∈ firstHeard frames := by
  rw [mem_firstHeard]
  induction frames with
  | nil => cases h
  | cons f frames ih =>
    obtain hold | hnew := Profile.of_nextChannel h
    · obtain ⟨g, hg, hchannel⟩ := ih hold
      exact ⟨g, List.mem_cons_of_mem f hg, hchannel⟩
    · exact ⟨f, List.mem_cons_self, hnew⟩

theorem announced_eq_none_iff {frames : List Frame} :
    announced frames = none ↔ firstHeard frames = [] := by
  rw [firstHeard_eq_nil_iff]
  induction frames with
  | nil => simp [announced]
  | cons f frames ih =>
    rw [announced, Profile.nextChannel_eq_none_iff, ih, List.forall_mem_cons, and_comm]

/-- The channels that `m` was heard on in its life. -/
def channelsSince (steps : List Step) (m : MacAddress) : List UInt8 := firstHeard (lifeOf steps m)

theorem channelsSince_cons (x : Step) (steps : List Step) (m : MacAddress) :
    channelsSince (x :: steps) m =
      if x.drops m then []
      else channelsSince steps m ++
        ((x.takenFrom? m).bind fun f => f.newChannel (channelsSince steps m)).toList := by
  rw [channelsSince, lifeOf_cons]
  split
  · rfl
  · cases x.takenFrom? m with
    | none => simp [channelsSince]
    | some f => exact firstHeard_cons f _

namespace Step

/-- Whether `m` is heard on a channel in a step that it was not heard on before. -/
def tunes (channel : UInt8) (m : MacAddress) (x : Step) (earlier : List Step) : Bool :=
  (x.takenFrom? m).any fun f => f.newChannel (channelsSince earlier m) == some channel

def clears (x : Step) : Bool :=
  match x.operation with
  | .clear => true
  | _ => false

end Step

theorem since_tunes_lt {channel : UInt8} {steps : List Step} {m : MacAddress}
    (h : channel ∈ channelsSince steps m) :
    since (Step.tunes channel m) steps < steps.length := by
  refine since_lt_length (P := fun steps => channel ∈ channelsSince steps m)
    (by simp [channelsSince, lifeOf, firstHeard]) (fun x earlier hmem => ?_) h
  rw [channelsSince_cons] at hmem
  split at hmem
  · simp at hmem
  · obtain hold | hnew := List.mem_append.1 hmem
    · exact .inr hold
    · obtain ⟨f, hf, hchannel⟩ := Option.bind_eq_some_iff.1 (Option.mem_toList.1 hnew)
      exact .inl (by simp [Step.tunes, hf, hchannel])

/-- The channels that were heard of since everything was last forgotten. -/
def channelsEver (steps : List Step) : List UInt8 :=
  firstHeard ((steps.takeWhile fun x => !x.clears).filterMap Step.taken?)

theorem channelsEver_cons (x : Step) (steps : List Step) :
    channelsEver (x :: steps) =
      if x.clears then []
      else channelsEver steps ++ (x.taken?.bind fun f => f.newChannel (channelsEver steps)).toList := by
  rw [channelsEver]
  cases hclears : x.clears with
  | true => simp [firstHeard, hclears]
  | false =>
    rw [List.takeWhile_cons_of_pos (by simp [hclears]), List.filterMap_cons]
    cases x.taken? with
    | none => simp [channelsEver]
    | some f => exact firstHeard_cons f _

namespace Dossier

variable (weight : Float32)

theorem channels_ofLife (life : List Frame) :
    ((ofLife weight life).map channels).getD [] = firstHeard life := by
  induction life with
  | nil => rfl
  | cons f life ih =>
    rw [firstHeard_cons, ← ih]
    rfl

theorem channel_ofLife (life : List Frame) :
    ((ofLife weight life).bind fun x => x.profile.channel) = announced life := by
  induction life with
  | nil => rfl
  | cons f life ih =>
    rw [announced, ← ih]
    cases hknown : ofLife weight life <;> simp [ofLife, follow, hknown, Profile.ofFrame] <;> rfl

end Dossier

theorem History.Told.channelsSince {h : History} {c : Chronicle} (hh : h.Told c) (m : MacAddress) :
    ((h.survey.dossier c m).map Dossier.channels).getD [] = AirSurvey.channelsSince h.steps m := by
  rw [hh m, Dossier.channels_ofLife, AirSurvey.channelsSince]

theorem History.Told.channelsSince_eq {h : History} {c : Chronicle} (hh : h.Told c)
    (hs : h.survey.Indexed c) {i : Nat} {d : Device} (hd : h.survey.devices.at? i = some d) :
    AirSurvey.channelsSince h.steps d.address = h.survey.channels.channelsAt c.heard i := by
  rw [AirSurvey.channelsSince, ← @Dossier.channels_ofLife h.survey.settings.weight,
    hh.ofLife hs hd, Option.map_some, Option.getD_some]

theorem History.Told.announced_eq {h : History} {c : Chronicle} (hh : h.Told c)
    (hs : h.survey.Indexed c) {i : Nat} {d : Device} (hd : h.survey.devices.at? i = some d) :
    announced (lifeOf h.steps d.address) = d.profile.channel := by
  rw [← @Dossier.channel_ofLife h.survey.settings.weight, hh.ofLife hs hd,
    Option.bind_some]

theorem ChannelTable.mem_slotsOn {t : ChannelTable} {order : List Nat} {channel : UInt8} {i : Nat} :
    i ∈ t.slotsOn order channel ↔ channel ∈ t.channelsAt order i := by
  simp only [slotsOn, channelsAt, List.mem_filterMap, List.mem_filter, mem_picked, beq_iff_eq]
  constructor
  · intro hgiven
    rcases hgiven with ⟨m, ⟨hm, hchannel⟩, hi⟩
    exact ⟨m, ⟨hm, hi⟩, hchannel⟩
  · intro hgiven
    rcases hgiven with ⟨m, ⟨hm, hi⟩, hchannel⟩
    exact ⟨m, ⟨hm, hchannel⟩, hi⟩

theorem ChannelTable.mem_numbers {t : ChannelTable} {order : List Nat} {channel : UInt8} {i : Nat}
    (h : channel ∈ t.channelsAt order i) : channel ∈ t.numbers := by
  obtain ⟨m, -, hm⟩ := List.mem_filterMap.1 h
  obtain ⟨k, -, hk⟩ := Option.bind_eq_some_iff.1 hm
  exact List.mem_of_getElem? hk

theorem ChannelTable.Joined.slotsOn {t u : ChannelTable} {chains : Nat → Chain Presence.byDevice}
    {order : List Nat} {i m k : Nat} {channel : UInt8} (hj : t.Joined i channel m k u)
    (h : Hearing t chains order) (number : UInt8) :
    u.slotsOn (order ++ [m]) number =
      t.slotsOn order number ++ if number = channel then [i] else [] := by
  have hsame : (order.filter fun l => u.channelAt l == some number).filterMap u.deviceOf =
      t.slotsOn order number := by
    rw [ChannelTable.slotsOn, List.filter_congr fun l hl => by rw [(hj.stays h hl).2]]
    exact List.filterMap_congr fun l hl => (hj.stays h (List.mem_filter.1 hl).1).1
  rw [ChannelTable.slotsOn, List.filter_append, List.filterMap_append, hsame]
  by_cases hnumber : number = channel
  · simp [hnumber, hj.begins]
  · have hother : ¬ channel = number := fun e => hnumber e.symm
    simp [hnumber, hother, hj.begins]

namespace Survey

variable {s t : Survey} {c c' : Chronicle} {f : Frame} {i : Nat} {d : Device} {events : List Event}

def heardAddresses (s : Survey) (c : Chronicle) (channel : UInt8) : List MacAddress :=
  (s.channels.slotsOn c.heard channel).filterMap (addressIn s.devices)

theorem occupied_of_slotsOn (hs : s.Indexed c) {channel : UInt8}
    (hi : i ∈ s.channels.slotsOn c.heard channel) : (s.devices.at? i).isSome := by
  obtain ⟨m, -, hm⟩ := List.mem_filterMap.1 hi
  exact hs.owner m i hm

theorem mem_heardAddresses (hs : s.Indexed c) (hd : s.devices.at? i = some d) {channel : UInt8} :
    d.address ∈ s.heardAddresses c channel ↔ channel ∈ s.channels.channelsAt c.heard i := by
  rw [heardAddresses, List.mem_filterMap]
  have hi := addressIn_of_at? hd
  constructor
  · intro hgiven
    rcases hgiven with ⟨j, hj, hja⟩
    have hfound := (hs.roster.tells _ _).2 hja
    rw [(hs.roster.tells _ _).2 hi] at hfound
    obtain rfl := Option.some.inj hfound
    exact ChannelTable.mem_slotsOn.1 hj
  · intro hchannel
    exact ⟨i, ChannelTable.mem_slotsOn.2 hchannel, hi⟩

/-! ## What an operation does to the channels and to who is on them -/

theorem Arrives.heardAddresses (m : s.Arrives c f i d t c' events) (hs : s.Indexed c)
    (channel : UInt8) : t.heardAddresses c' channel = s.heardAddresses c channel := by
  obtain ⟨-, -, hchannels, -, hheard⟩ := m.frame
  rw [Survey.heardAddresses, hchannels, hheard]
  exact List.filterMap_congr fun j hj => m.addressIn hs (occupied_of_slotsOn hs hj)

theorem FollowsChannel.channels (m : s.FollowsChannel c f i t c' events) (hs : s.Indexed c) :
    t.channels.numbers = s.channels.numbers ++ (f.newChannel s.channels.numbers).toList ∧
      ∀ number, t.channels.slotsOn c'.heard number = s.channels.slotsOn c.heard number ++
        if f.newChannel (s.channels.channelsAt c.heard i) = some number then [i] else [] := by
  cases m with
  | stays hstays =>
    have hnone : ∀ l, (∀ channel, f.channel = some channel → channel ∈ l) →
        f.newChannel l = none := by
      intro l hl
      rw [Frame.newChannel, Option.filter_eq_none_iff]
      exact fun channel hchannel => by simpa using hl channel hchannel
    refine ⟨?_, fun number => ?_⟩
    · rw [hnone _ fun channel hchannel => ChannelTable.mem_numbers (hstays channel hchannel)]
      simp
    · rw [hnone _ hstays]
      simp
  | @tunes channel l k b u hchannel hother hjoined hhearing =>
    refine ⟨?_, fun number => ?_⟩
    · rw [hjoined.numbers, Frame.newChannel, hchannel, Option.filter_some]
      by_cases hknown : channel ∈ s.channels.numbers <;> simp [hknown]
    · have hnew : f.newChannel (s.channels.channelsAt c.heard i) = some channel := by
        rw [Frame.newChannel, hchannel, Option.filter_some, if_pos (by simpa using hother)]
      rw [hjoined.slotsOn hs.hearing, hnew]
      simp only [Option.some.injEq, eq_comm]

theorem Settles.channels (m : s.Settles c f i d t c' events) (hs : s.Indexed c) :
    t.channels.numbers = s.channels.numbers ++ (f.newChannel s.channels.numbers).toList ∧
      ∀ number, t.channels.slotsOn c'.heard number = s.channels.slotsOn c.heard number ++
        if f.newChannel (s.channels.channelsAt c.heard i) = some number then [i] else [] := by
  obtain ⟨hname, hchannel, -, hlook⟩ := m
  obtain ⟨-, -, -, hchannels, -, hheard⟩ := hname.frame
  obtain ⟨-, -, -, -, hchannels'⟩ := hlook.frame
  have hfollowed := hchannel.channels (hname.indexed hs)
  rw [hchannels, hheard] at hfollowed
  rw [hchannels']
  exact hfollowed

/-- A device that is heard on a channel for the first time goes behind all others there. -/
theorem Settles.heardAddresses (m : s.Settles c f i d t c' events) (hs : s.Indexed c)
    (hd : s.devices.at? i = some d) (channel : UInt8) :
    t.heardAddresses c' channel = s.heardAddresses c channel ++
      if f.newChannel (s.channels.channelsAt c.heard i) = some channel then [d.address] else [] := by
  have hsame : addressIn t.devices = addressIn s.devices :=
    addressIn_of_view (Pool.view_eq_comp m.touched.view fun y => y.2.1)
  have hi := addressIn_of_at? hd
  rw [Survey.heardAddresses, (m.channels hs).2, hsame, List.filterMap_append, Survey.heardAddresses]
  split <;> simp [hi]

theorem Sweeps.heardAddresses {now : Timestamp} {timeout : UInt32} {u : Survey} {n : Nat}
    (m : Sweeps now timeout c.ages s c u c' events n) (hs : s.Sound c) (hu : u.Indexed c')
    (channel : UInt8) :
    (u.swept c' n).heardAddresses c' channel =
      (s.heardAddresses c channel).filter fun a => !(leavers events).contains a := by
  obtain ⟨hthinned, hchronicle⟩ := m.swept_thinned hs hu
  have hslots := hthinned.slotsOn (c := c) channel
  rw [← hchronicle] at hslots
  rw [Survey.heardAddresses, hslots, m.addressIn hs hu, Survey.heardAddresses]

theorem Becomes.numbers {o : Operation} {answer : Except Refusal Reply}
    (m : s.Becomes c o t c' events answer) (hs : s.Sound c) :
    t.channels.numbers =
      if (Step.mk o events answer).clears then []
      else s.channels.numbers ++
        ((Step.mk o events answer).taken?.bind fun f => f.newChannel s.channels.numbers).toList := by
  cases m with
  | refuses => simp [Step.clears, Step.taken?]
  | observes _ harrives hindexed hsettles =>
    obtain ⟨-, -, hchannels, -⟩ := harrives.frame
    rw [(hsettles.channels hindexed).1, hchannels]
    rfl
  | sweeps hoperation hsweeps hindexed =>
    rw [(hsweeps.swept_thinned hs hindexed).1.numbers]
    obtain rfl | ⟨rfl, -⟩ := hoperation <;> simp [Step.clears, Step.taken?]
  | purges => simp [Step.clears, Step.taken?, purgeNetworks]
  | clears => rfl

theorem Becomes.reorders_heard {o : Operation} {answer : Except Refusal Reply}
    (m : s.Becomes c o t c' events answer) (hs : s.Sound c) {steps : List Step}
    (hknown : ∀ a, ((s.dossier c a).map Dossier.channels).getD [] = channelsSince steps a)
    (channel : UInt8) :
    (Step.mk o events answer).Reorders (Step.tunes channel) steps (s.heardAddresses c channel)
      (t.heardAddresses c' channel) := by
  cases m with
  | refuses => exact .same fun _ _ => rfl
  | @observes f i d e s₁ _ c₁ _ e₁ e₂ _ harrives hindexed hsettles =>
    have haddress := harrives.address hs.toIndexed
    have hchannels : s₁.channels.channelsAt c₁.heard i = channelsSince steps f.source :=
      (harrives.known hs.toIndexed).2.trans (hknown f.source)
    have htunes : ∀ a, (Step.mk (.observe f) (e₁ ++ e₂) (.ok (.device e))).tunes channel a steps =
        if f.source = a then f.newChannel (channelsSince steps f.source) == some channel
        else false := by
      intro a
      rw [Step.tunes, Step.takenFrom?_accepted]
      split
      · next ha => rw [← ha, Option.any_some]
      · rfl
    rw [← harrives.heardAddresses hs.toIndexed, hsettles.heardAddresses hindexed harrives.device,
      hchannels, haddress]
    by_cases hnew : f.newChannel (channelsSince steps f.source) = some channel
    · rw [if_pos hnew]
      refine ⟨fun _ => true, some f.source, by simp, fun a ha _ => ?_, fun a ha => ?_⟩
      · have hother : ¬ f.source = a := by
          rintro rfl
          rw [← haddress, mem_heardAddresses hindexed harrives.device, hchannels] at ha
          simpa [ha] using (Option.filter_eq_some_iff.1 hnew).2
        rw [htunes, if_neg hother]
      · obtain rfl := Option.some.inj ha
        rw [htunes, if_pos rfl, hnew, beq_self_eq_true]
    · rw [if_neg hnew, List.append_nil]
      refine .same fun a _ => ?_
      rw [htunes]
      split
      · simpa using hnew
      · rfl
  | sweeps hoperation hsweeps hindexed =>
    rw [hsweeps.heardAddresses hs hindexed]
    obtain rfl | ⟨rfl, -⟩ := hoperation
    · exact .thins _ fun _ _ => rfl
    · exact .thins _ fun _ _ => rfl
  | purges => exact .same fun _ _ => rfl
  | clears =>
    exact ⟨fun _ => false, none, by simp [Survey.heardAddresses, ChannelTable.slotsOn], by simp,
      by simp⟩

end Survey

namespace Hearing

variable {t : ChannelTable} {chains : Nat → Chain Presence.byDevice} {order : List Nat}

theorem mem_order (h : Hearing t chains order) (m : Nat) :
    m ∈ order ↔ (t.presences.at? m).isSome := by
  rw [h.mem, ChannelTable.deviceOf, Option.isSome_map]

theorem length_channelsAt (h : Hearing t chains order) (i : Nat) :
    (t.channelsAt order i).length = (picked t.deviceOf order i).length := by
  rw [ChannelTable.channelsAt, List.length_filterMap_eq_countP, List.countP_eq_length]
  intro m hm
  obtain ⟨channel, hchannel, -⟩ := h.channelOf (mem_picked.1 hm).1
  simp [hchannel]

theorem toList_device (h : Hearing t chains order) (i : Nat) :
    ∃ l, (chains i).toList t.presences = .ok l ∧ l.Nodup ∧
      ∀ m, m ∈ l ↔ ∃ x, t.presences.at? m = some x ∧ x.device = i := by
  refine ⟨_, (h.onDevice.spells i).toList, picked_nodup h.nodup, fun m => ?_⟩
  rw [mem_picked, h.mem_order, ChannelTable.deviceOf]
  cases t.presences.at? m <;> simp

theorem toList_channel (h : Hearing t chains order) {k : Nat} {e : ChannelEntry}
    (he : t.entries[k]? = some e) :
    ∃ l, e.members.toList t.presences = .ok l ∧ l.Nodup ∧
      ∀ m, m ∈ l ↔ ∃ x, t.presences.at? m = some x ∧ x.entry = k := by
  have hspells := h.onChannel.spells k
  rw [show t.chain k = e.members by simp [ChannelTable.chain, he]] at hspells
  refine ⟨_, hspells.toList, picked_nodup h.nodup, fun m => ?_⟩
  rw [mem_picked, h.mem_order, ChannelTable.entryOf]
  cases t.presences.at? m <;> simp

end Hearing

theorem length_eq_sum_picked {key : Nat → Option Nat} {order owners : List Nat}
    (horder : order.Nodup) (howners : owners.Nodup)
    (hkey : ∀ m ∈ order, ∃ i ∈ owners, key m = some i) :
    order.length = (owners.map fun i => (picked key order i).length).sum := by
  rw [← List.length_flatMap]
  refine List.Perm.length_eq ((List.perm_ext_iff_of_nodup horder ?_).2 fun m => ?_)
  · rw [List.nodup_flatMap]
    refine ⟨fun i _ => picked_nodup horder, howners.imp fun {i j} hij => ?_⟩
    intro m hi hj
    rw [mem_picked] at hi hj
    exact hij (Option.some.inj (hi.2.symm.trans hj.2))
  · rw [List.mem_flatMap]
    constructor
    · intro hm
      obtain ⟨i, hi, hmi⟩ := hkey m hm
      exact ⟨i, hi, mem_picked.2 ⟨hm, hmi⟩⟩
    · intro hgiven
      rcases hgiven with ⟨i, -, hm⟩
      exact (mem_picked.1 hm).1

theorem Survey.Indexed.channelCount {s : Survey} {c : Chronicle} (hs : s.Indexed c) {i : Nat}
    {d : Device} (hd : s.devices.at? i = some d) :
    d.channelCount.toNat = (picked s.channels.deviceOf c.heard i).length := by
  rw [hs.count i d hd, ← deviceChain_of_at? hd]
  exact (hs.hearing.onDevice.spells i).length

/-- The devices on a channel are those that were heard on it. -/
theorem Survey.mem_devicesOn {s : Survey} {c : Chronicle} {channel : UInt8} {d : Device} :
    d ∈ (s.channels.slotsOn c.heard channel).filterMap s.devices.at? ↔
      ∃ i, s.devices.at? i = some d ∧ channel ∈ s.channels.channelsAt c.heard i := by
  simp only [List.mem_filterMap, ChannelTable.mem_slotsOn, and_comm]

theorem Survey.Indexed.size_presences {s : Survey} {c : Chronicle} (hs : s.Indexed c) :
    s.channels.presences.size =
      ((c.ages.filterMap s.devices.at?).map fun d => d.channelCount.toNat).sum := by
  have hcounts : (c.ages.filterMap s.devices.at?).map (fun d => d.channelCount.toNat) =
      c.ages.map fun i => (picked s.channels.deviceOf c.heard i).length := by
    rw [List.map_filterMap, ← List.filterMap_eq_map]
    refine List.filterMap_congr fun i hi => ?_
    obtain ⟨d, hd⟩ := Option.isSome_iff_exists.1 ((hs.roster.mem i).1 hi)
    rw [hd, Option.map_some, hs.channelCount hd]
    rfl
  rw [hcounts, ← length_eq_sum_picked hs.hearing.nodup (hs.roster.woven.spells ()).nodup,
    hs.hearing.pool.length_eq_size hs.hearing.nodup hs.hearing.mem_order]
  intro m hm
  obtain ⟨i, hi⟩ := Option.isSome_iff_exists.1 ((hs.hearing.mem m).1 hm)
  exact ⟨i, (hs.roster.mem i).2 (hs.owner m i hi), hi⟩

namespace History

structure Tuned (h : History) (c : Chronicle) : Prop where
  told : h.Told c
  order : ∀ channel, InOrder (Step.tunes channel) h.steps (h.survey.heardAddresses c channel)
  numbers : h.survey.channels.numbers = channelsEver h.steps

theorem Tuned.new (settings : Settings) : (new settings).Tuned ⟨[], [], []⟩ :=
  ⟨.new settings, fun _ => .nil, rfl⟩

theorem Tuned.step {h : History} {c c' : Chronicle} {o : Operation} {t : Survey}
    {events : List Event} {answer : Except Refusal Reply} (hh : h.Tuned c)
    (hs : h.survey.Sound c) (m : h.survey.Becomes c o t c' events answer) :
    Tuned ⟨t, ⟨o, events, answer⟩ :: h.steps⟩ c' where
  told := hh.told.step hs m
  order channel := (hh.order channel).step (m.reorders_heard hs hh.told.channelsSince channel)
  numbers := by rw [m.numbers hs, channelsEver_cons, hh.numbers]

end History

theorem play_tuned (settings : Settings) (ops : List Operation) :
    ∃ h c, play settings ops = .ok h ∧ h.survey.Sound c ∧ h.Tuned c :=
  play_run (P := History.Tuned) settings (.new settings)
    (fun _ _ _ _ _ _ _ hs htuned hbecomes _ => htuned.step hs hbecomes) ops

/-- After every run a device is on the channels of the frames of its life, each as it first
appeared, and a channel lists the devices that were heard on it by when they first appeared there.
Every presence is on the chain of its device and on that of its channel and on no other. -/
theorem play_channels (settings : Settings) (ops : List Operation) :
    ∃ s steps ds, play settings ops = .ok ⟨s, steps⟩ ∧ s.allDevices = .ok ds ∧
      (∀ d ∈ ds, s.channelsOf d = .ok (channelsSince steps d.address) ∧
        d.channelCount.toNat = (channelsSince steps d.address).length ∧
        (d.profile.channel = none ↔ channelsSince steps d.address = []) ∧
        ∀ channel, d.profile.channel = some channel → channel ∈ channelsSince steps d.address) ∧
      (∀ channel, ∃ es, s.devicesOn channel = .ok es ∧
        (∀ d, d ∈ es ↔ d ∈ ds ∧ channel ∈ channelsSince steps d.address) ∧
        (es.map Device.address).Nodup ∧
        (∀ d ∈ es, since (Step.tunes channel d.address) steps < steps.length) ∧
        InOrder (Step.tunes channel) steps (es.map Device.address)) ∧
      s.channelEntries.map ChannelEntry.channel = channelsEver steps ∧
      (∀ m x, s.channels.presences.at? m = some x →
        (s.devices.at? x.device).isSome ∧ x.entry < s.channels.entries.size) ∧
      (∀ i d, s.devices.at? i = some d →
        ∃ l, d.channels.toList s.channels.presences = .ok l ∧ l.Nodup ∧
          ∀ m, m ∈ l ↔ ∃ x, s.channels.presences.at? m = some x ∧ x.device = i) ∧
      (∀ k e, s.channels.entries[k]? = some e →
        ∃ l, e.members.toList s.channels.presences = .ok l ∧ l.Nodup ∧
          ∀ m, m ∈ l ↔ ∃ x, s.channels.presences.at? m = some x ∧ x.entry = k) ∧
      s.channels.presences.size = (ds.map fun d => d.channelCount.toNat).sum ∧
      s.channels.presences.size ≤ Capacity.presences := by
  obtain ⟨⟨s, steps⟩, c, hplay, hs, htuned⟩ := play_tuned settings ops
  have hsince : ∀ i d, s.devices.at? i = some d →
      channelsSince steps d.address = s.channels.channelsAt c.heard i :=
    fun _ _ => htuned.told.channelsSince_eq hs.toIndexed
  refine ⟨s, steps, _, hplay, Survey.allDevices_eq hs.toIndexed, fun d hd => ?_, fun channel => ?_,
    htuned.numbers, fun m x hx => ⟨?_, ?_⟩, fun i d hd => ?_,
    fun k e he => hs.hearing.toList_channel he, hs.toIndexed.size_presences, ?_⟩
  · obtain ⟨i, hd⟩ := (Survey.mem_allDevices hs.toIndexed).1 hd
    have hchannel : announced (lifeOf steps d.address) = d.profile.channel :=
      htuned.told.announced_eq hs.toIndexed hd
    refine ⟨?_, ?_, ?_, fun channel hannounced => ?_⟩
    · rw [Survey.channelsOf_eq hs.toIndexed hd, hsince i d hd]
    · rw [hs.toIndexed.channelCount hd, ← hs.hearing.length_channelsAt, hsince i d hd]
    · rw [← hchannel, announced_eq_none_iff, channelsSince]
    · exact mem_of_announced (hchannel.trans hannounced)
  · have hin : InOrder (Step.tunes channel) steps
        (((s.channels.slotsOn c.heard channel).filterMap s.devices.at?).map Device.address) := by
      rw [List.map_filterMap]
      exact htuned.order channel
    have hmem : ∀ d, d ∈ (s.channels.slotsOn c.heard channel).filterMap s.devices.at? ↔
        d ∈ c.ages.filterMap s.devices.at? ∧ channel ∈ channelsSince steps d.address := by
      intro d
      rw [Survey.mem_devicesOn, Survey.mem_allDevices hs.toIndexed, ← exists_and_right]
      refine exists_congr fun i => and_congr_right fun hd => ?_
      rw [hsince i d hd]
    exact ⟨_, Survey.devicesOn_eq hs.toIndexed channel, hmem, hin.nodup,
      fun d hd => since_tunes_lt ((hmem d).1 hd).2, hin⟩
  · exact hs.owner m x.device (by simp [ChannelTable.deviceOf, hx])
  · rw [← ChannelTable.length_numbers]
    exact hs.hearing.entry m x.entry (by simp [ChannelTable.entryOf, hx])
  · rw [← deviceChain_of_at? hd]
    exact hs.hearing.toList_device i
  · exact Nat.le_trans (Nat.le.intro hs.hearing.pool.size_add_free) hs.hearing.pool.bounded

end AirSurvey
