import AirSurvey.Proofs.Survey.Membership

set_option autoImplicit false

/-!
Access points. Whatever became of other devices, the access point of a device is the tracked device
that heads its cell; a frame that is taken in settles anew which one that is.
-/

namespace AirSurvey

namespace Survey

variable {s t : Survey} {c c' : Chronicle} {f : Frame} {i : Nat} {d e : Device}
  {events : List Event}

theorem handleOf?_eq_some_iff (hs : s.Indexed c) {m : MacAddress} {h : Handle} :
    s.handleOf? m = some h ↔ ∃ a, s.find? m = .ok (some a) ∧ a.id = h := by
  rw [find?_eq hs, handleOf?]
  cases hfind : s.addresses.find? m with
  | none => simp
  | some i =>
    obtain ⟨a, ha, -⟩ := (hs.roster.found m i).1 hfind
    simp [ha, hs.roster.handle i a ha]

theorem aimOf_eq_some_iff (hs : s.Indexed c) {h : Handle} :
    s.aimOf d = some h ↔ d.isStation = true ∧ ∃ bssid a, d.profile.bssid = some bssid ∧
      s.find? bssid = .ok (some a) ∧ a.id = h := by
  rw [aimOf]
  split
  · next hstation =>
    simp only [Option.bind_eq_some_iff, handleOf?_eq_some_iff hs, hstation, true_and,
      exists_and_left]
  · next hstation => simp [hstation]

theorem Settles.accessPoint (m : s.Settles c f i d t c' events) (he : t.devices.at? i = some e) :
    e.accessPoint = t.aimOf e := by
  cases m with
  | @intro s₁ s₂ _ _ _ d₂ _ _ _ _ _ hd₂ hlook =>
    obtain ⟨-, hdevices, haddresses, -⟩ := hlook.frame
    have hhandle : t.handleOf? = s₂.handleOf? := funext fun a => by
      rw [handleOf?, haddresses, hdevices]
      exact congrArg (Option.bind _) (funext fun j => Pool.handleAt?_modifyAt _ _ j _)
    rw [hdevices, aimed, Pool.at?_modifyAt, if_pos rfl, hd₂, Option.map_some, Option.some.injEq]
      at he
    subst he
    rw [aimOf, aimOf, hhandle]
    rfl

/-- The access point of a device is tracked and heads the cell of the device, which is a station. A
device that a frame was just taken in from has an access point if and only if it is a station of a
cell that a tracked device heads, itself as the case may be. -/
theorem observe_aims (hs : s.Reachable) :
    (∃ ds, s.allDevices = .ok ds ∧ ∀ d ∈ ds, ∀ h, d.accessPoint = some h →
      ∃ a, s.device? h = some a ∧ d.profile.bssid = some a.address ∧ d.isStation = true) ∧
    ∀ f t events d, (observe f).run s = .ok ⟨t, events, .ok d⟩ →
      t.find? f.source = .ok (some d) ∧ d.address = f.source ∧
      (∀ h, d.accessPoint = some h ↔ d.isStation = true ∧ ∃ bssid a,
        d.profile.bssid = some bssid ∧ t.find? bssid = .ok (some a) ∧ a.id = h) ∧
      (d.isStation = true → d.profile.bssid = some d.address → d.accessPoint = some d.id) := by
  obtain ⟨c, hs⟩ := hs.sound
  refine ⟨⟨_, allDevices_eq hs.toIndexed, fun d hd h hh => ?_⟩, fun f t events e hrun => ?_⟩
  · obtain ⟨i, hd⟩ := (mem_allDevices hs.toIndexed).1 hd
    obtain ⟨a, ha, hstation, hbssid⟩ := hs.aimed i d hd h hh
    exact ⟨a, ha, hbssid, hstation⟩
  · cases hrefusal : s.refusalOf c f with
    | some r =>
      rw [observe_refused hs.toIndexed hrefusal] at hrun
      cases hrun
    | none =>
      obtain ⟨i, d, s₁, c₁, e₁, t', c', e₂, e', hrun', harrives, hs₁, hsettles, he, ht⟩ :=
        observe_accepted hs hrefusal
      rw [hrun'] at hrun
      cases hrun
      have hsource := harrives.address hs.toIndexed
      have hfound := hsettles.find?_source hs₁ ht.toIndexed harrives.device hsource he
      have haddress : e.address = f.source := by
        obtain ⟨e', he', hface⟩ := hsettles.touched.exists_at? harrives.device
        rw [he, Option.some.injEq] at he'
        subst he'
        exact (congrArg (fun y => y.2.1) hface).trans hsource
      rw [hsettles.accessPoint he]
      refine ⟨hfound, haddress, fun h => aimOf_eq_some_iff ht.toIndexed, fun hstation hown => ?_⟩
      refine (aimOf_eq_some_iff ht.toIndexed).2 ⟨hstation, e.address, e, hown, ?_, rfl⟩
      rw [haddress, hfound]

theorem observe_aims_station :
    ∃ t events d a, (observe { Frame.heardAt ⟨2, 0, 0, 0, 0, 2⟩ 6 with
          bssid := some ⟨2, 0, 0, 0, 0, 1⟩, mode := some .station }).run
        (.ofRun .default [.observe { Frame.heardAt ⟨2, 0, 0, 0, 0, 1⟩ 5 with
          bssid := some ⟨2, 0, 0, 0, 0, 1⟩, mode := some .accessPoint }]) =
        .ok ⟨t, events, .ok d⟩ ∧
      t.find? ⟨2, 0, 0, 0, 0, 1⟩ = .ok (some a) ∧ d.accessPoint = some a.id := by
  obtain ⟨-, haims⟩ := observe_aims
    (ofRun_reachable .default [.observe { Frame.heardAt ⟨2, 0, 0, 0, 0, 1⟩ 5 with
      bssid := some ⟨2, 0, 0, 0, 0, 1⟩, mode := some .accessPoint }])
  have hrun : ((observe { Frame.heardAt ⟨2, 0, 0, 0, 0, 2⟩ 6 with
        bssid := some ⟨2, 0, 0, 0, 0, 1⟩, mode := some .station }).run
      (.ofRun .default [.observe { Frame.heardAt ⟨2, 0, 0, 0, 0, 1⟩ 5 with
        bssid := some ⟨2, 0, 0, 0, 0, 1⟩, mode := some .accessPoint }])).toOption.map (fun o =>
          (o.answer.map fun d => (d.isStation, d.profile.bssid),
            (o.state.find? ⟨2, 0, 0, 0, 0, 1⟩).map Option.isSome)) =
      some (.ok (true, some ⟨2, 0, 0, 0, 0, 1⟩), .ok true) := by
    decide +kernel
  obtain ⟨o, ho, heval⟩ := Action.exists_of_toOption_eq_some hrun
  obtain ⟨t, events, answer⟩ := o
  obtain ⟨hanswer, hfind⟩ := Prod.mk.inj heval
  obtain ⟨d, rfl, hd⟩ := Action.exists_of_map_eq_ok hanswer
  obtain ⟨found, hfound, hsome⟩ := Action.exists_of_map_eq_ok hfind
  obtain ⟨a, rfl⟩ := Option.isSome_iff_exists.1 hsome
  obtain ⟨hstation, hbssid⟩ := Prod.mk.inj hd
  obtain ⟨-, -, haim, -⟩ := haims _ t events d ho
  exact ⟨t, events, d, a, ho, hfound, (haim a.id).2 ⟨hstation, _, a, hbssid, hfound, rfl⟩⟩

end Survey

end AirSurvey
