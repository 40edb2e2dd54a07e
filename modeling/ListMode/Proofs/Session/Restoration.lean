import ListMode.Proofs.Session.Settings
import ListMode.Proofs.Session.Succession

/-!
# Settings come back

A session of digitizers stays one: they keep their identifiers, and whatever is written to them, each
has a configuration that can be used and that a tree can hold. So a snapshot has one entry for each
of them, and writing it back later gives every digitizer the configuration that it had.
-/

namespace ListMode

open Synthetic (Member)

namespace Producer

section

variable {p p' : Producer} {op : Operation} {time : Nat} {now : Instant} {handed : List Delivery}

/-- A stop of a digitizer or a replay is one of its slot, whoever waits for it. -/
theorem stop_eq (hreal : ∀ x, p.device ≠ .scripted x) (time : Nat) (now : Instant) :
    ∃ slot, (p.stop time now).2.2 = { p with slot } := by
  have hend : ∀ (q : Producer) {stopping : Stopping} {wasRunning : Bool} {rest : List Delivery}
      {p' : Producer}, (∃ slot, q = { p with slot }) →
        q.endStop? time stopping = some (wasRunning, rest, p') → ∃ slot, p' = { p with slot } := by
    rintro q stopping wasRunning rest p' ⟨slot, rfl⟩ he
    have hreal : ∀ x, ({ p with slot } : Producer).device ≠ .scripted x := hreal
    rcases endStop_cases hreal he with ⟨rfl, -⟩ | ⟨_, _, slot', -, -, rfl⟩
    · exact ⟨slot, rfl⟩
    · exact ⟨slot', rfl⟩
  unfold stop
  rw [beginStop_eq hreal]
  cases p.slot.beginStop.1 with
  | none => exact ⟨_, rfl⟩
  | some request =>
    dsimp only [Option.map_some, Option.getD_some]
    -- The task that is waited for may see the request before the stop is complete.
    have hnotice : ∃ slot, ((({ p with slot := p.slot.beginStop.2 } : Producer).notice?
        request.number time now).getD ([], { p with slot := p.slot.beginStop.2 })).2 =
        { p with slot } := by
      cases hn : ({ p with slot := p.slot.beginStop.2 } : Producer).notice? request.number time
          now with
      | none => exact ⟨_, rfl⟩
      | some noticed =>
        obtain ⟨more, p'⟩ := noticed
        obtain rfl := notice?_eq hn
        exact ⟨_, rfl⟩
    split
    · rename_i he
      exact hend _ hnotice he
    · exact hnotice

/-- No operation but a write changes a device, and none an identifier. -/
theorem device_of_operate (hreal : ∀ x, p.device ≠ .scripted x)
    (h : p.operate? time now op = some (handed, p')) (hwrite : ∀ settings, op ≠ .write settings) :
    p'.id = p.id ∧ p'.device = p.device := by
  by_cases hop : op = .shutdown
  · subst hop
    have hresult : (p.shutdown time now).2 = (handed, p') := Option.some.inj h
    obtain ⟨slot, hslot⟩ := p.stop_eq hreal time now
    have hshutdown : (p.shutdown time now).2.2 = { p with slot, status := .initial } := by
      rw [shutdown_eq hreal, hslot]
    rw [hresult] at hshutdown
    obtain rfl : p' = _ := hshutdown
    exact ⟨rfl, rfl⟩
  · cases alters_of_operate hreal h hop with
    | writes => exact absurd rfl (hwrite _)
    | boots | refuses | starts | asks | awaits | ends | ticks | notices => exact ⟨rfl, rfl⟩

/-- What is written to a digitizer can be written back, or is refused. -/
theorem write_restorable {config : Synthetic.Config} (hdevice : p.device = .synthetic config)
    (hconfig : config.Restorable) (t : Tree) : ∃ config : Synthetic.Config, config.Restorable ∧
      (p.write t).2 = { p with device := .synthetic config } := by
  by_cases hgood : ∃ config, Synthetic.Config.ofTree? t = some config ∧ config.Usable
  · obtain ⟨config, hread, husable⟩ := hgood
    exact ⟨config, Synthetic.Config.restorable_of_ofTree? hread husable,
      congrArg Prod.snd (write_usable hdevice hread husable)⟩
  · have hsame := (write_unusable hdevice fun config hread husable => hgood ⟨config, hread, husable⟩).2
    exact ⟨config, hconfig, by rw [hsame, ← hdevice]⟩

end

end Producer

namespace Session

/-- The producers of the session are these digitizers, in their order. -/
structure Staffed (s : Session) (members : List Member) : Prop where
  producers : s.producers.map (fun p => (p.id, p.device)) =
    members.map fun m => (m.id, .synthetic m.config)
  ids : (members.map (·.id)).Nodup
  restorable : ∀ m ∈ members, m.config.Restorable

section

variable {s s' t : Session} {a : Act} {acts : List Act} {members members' : List Member}

/-- The member at a place, and the digitizer there. -/
theorem Staffed.at (h : s.Staffed members) (i : Nat) :
    (s.producers[i]?).map (fun p => (p.id, p.device)) =
      (members[i]?).map fun m => (m.id, Device.synthetic m.config) := by
  rw [← List.getElem?_map, h.producers, List.getElem?_map]

theorem Staffed.member (h : s.Staffed members) {i : Nat} {p : Producer}
    (hp : s.producers[i]? = some p) :
    ∃ m, members[i]? = some m ∧ p.id = m.id ∧ p.device = .synthetic m.config := by
  have hat := h.at i
  rw [hp, Option.map_some] at hat
  obtain ⟨m, hm, he⟩ := Option.map_eq_some_iff.mp hat.symm
  obtain ⟨hid, hdevice⟩ := Prod.mk.inj he
  exact ⟨m, hm, hid.symm, hdevice.symm⟩

/-! ## Digitizers stay digitizers -/

theorem Staffed.of_eq (h : s.Staffed members)
    (hs : s'.producers.map (fun p => (p.id, p.device)) =
      s.producers.map fun p => (p.id, p.device)) : s'.Staffed members :=
  ⟨hs.trans h.producers, h.ids, h.restorable⟩

theorem Staffed.write (h : s.Staffed members) {i : Nat} {p : Producer}
    (hp : s.producers[i]? = some p) {t : Tree}
    (hs : s'.producers = s.producers.set i (p.write t).2) :
    ∃ members', s'.Staffed members' ∧ members'.map (·.id) = members.map (·.id) := by
  obtain ⟨m, hm, hid, hdevice⟩ := h.member hp
  have hmem := List.mem_of_getElem? hm
  obtain ⟨config, hconfig, hwrite⟩ := p.write_restorable hdevice (h.restorable m hmem) t
  have hids : (members.set i ⟨m.id, config⟩).map (·.id) = members.map (·.id) := map_set_eq hm rfl
  refine ⟨members.set i ⟨m.id, config⟩, ⟨?_, hids ▸ h.ids, fun x hx => ?_⟩, hids⟩
  · rw [hs, List.map_set, List.map_set, h.producers, hwrite]
    exact congrArg (fun id => List.set _ i (id, Device.synthetic config)) hid
  · rcases List.mem_or_eq_of_mem_set hx with hx | rfl
    · exact h.restorable x hx
    · exact hconfig

theorem Staffed.act (h : s.Staffed members) (ha : s.act? a = some s') :
    ∃ members', s'.Staffed members' ∧ members'.map (·.id) = members.map (·.id) := by
  rcases operates ha with hrests | ⟨i, p, op, handed, ho⟩
  · exact ⟨members, h.of_eq (by rw [hrests.producers_eq]), rfl⟩
  · obtain ⟨p', hop, hproducers⟩ := ho.after
    by_cases hwrite : ∃ t, op = .write t
    · obtain ⟨t, rfl⟩ := hwrite
      obtain ⟨-, rfl⟩ := Prod.mk.inj (Option.some.inj hop)
      exact h.write ho.before hproducers
    · obtain ⟨m, -, -, hdevice⟩ := h.member ho.before
      have hreal : ∀ x, p.device ≠ .scripted x := fun x hx => nomatch hx.symm.trans hdevice
      obtain ⟨hid, hsame⟩ :=
        Producer.device_of_operate hreal hop fun t ht => hwrite ⟨t, ht⟩
      refine ⟨members, h.of_eq ?_, rfl⟩
      rw [hproducers]
      exact map_set_eq ho.before (by rw [hid, hsame])

theorem Staffed.after (h : s.Staffed members) (hacts : s.after? acts = some t) :
    ∃ members', t.Staffed members' ∧ members'.map (·.id) = members.map (·.id) := by
  induction acts generalizing s members with
  | nil =>
    obtain rfl := Option.some.inj hacts
    exact ⟨members, h, rfl⟩
  | cons a rest ih =>
    obtain ⟨s₁, hs₁, hrest⟩ := Option.bind_eq_some_iff.mp hacts
    obtain ⟨members₁, h₁, hids₁⟩ := h.act hs₁
    obtain ⟨members', h', hids'⟩ := ih h₁ hrest
    exact ⟨members', h', hids'.trans hids₁⟩

/-! ## Snapshots -/

/-- What is read of a digitizer, by its identifier. -/
def page? : String × Device → Option (String × Tree)
  | (id, .synthetic config) => some (id, config.toTree)
  | _ => none

/-- What is read of the members. -/
def pages (members : List Member) : List (String × Tree) :=
  members.map fun m => (m.id, m.config.toTree)

theorem Staffed.nodup_pages (h : s.Staffed members) : ((pages members).map (·.1)).Nodup := by
  have hids : (pages members).map (·.1) = members.map (·.id) := List.map_map
  exact hids ▸ h.ids

theorem Staffed.snapshot_eq (h : s.Staffed members) :
    s.snapshot = .obj (KeyMap.ofList (pages members)).entries := by
  have hpages : ∀ read : Producer → Option (String × Tree), (∀ p config,
      p.device = .synthetic config → read p = some (p.id, config.toTree)) →
        s.producers.filterMap read = pages members := by
    intro read hread
    have hpage : ∀ p ∈ s.producers, read p = page? (p.id, p.device) := by
      intro p hp
      obtain ⟨i, hi⟩ := List.mem_iff_getElem?.mp hp
      obtain ⟨m, -, -, hdevice⟩ := h.member hi
      rw [hread p m.config hdevice, hdevice]
      rfl
    have hmap : s.producers.filterMap (fun p => page? (p.id, p.device)) = pages members := by
      rw [← Function.comp_def page? fun p : Producer => (p.id, p.device), ← List.filterMap_map,
        h.producers, List.filterMap_map]
      exact congrFun List.filterMap_eq_map members
    rw [List.filterMap_congr hpage, hmap]
  refine (congrArg Tree.object (hpages _ fun p config hdevice => ?_)).trans (Tree.object_eq _)
  unfold Producer.settings
  rw [hdevice]

/-- Writing the snapshot of `members` gives a digitizer the configuration that is there under its
identifier. -/
theorem Staffed.settles (h : s.Staffed members) {p : Producer} {old : Synthetic.Config} {m : Member}
    (hm : m ∈ members) (hid : p.id = m.id) (hdevice : p.device = .synthetic old) :
    p.refuses (KeyMap.ofList (pages members)).entries = false ∧
      p.settled (KeyMap.ofList (pages members)).entries =
        { p with device := .synthetic m.config } := by
  have hfield : Tree.field? p.id (KeyMap.ofList (pages members)).entries =
      some m.config.toTree := by
    rw [hid]
    exact Tree.field?_ofList h.nodup_pages (List.mem_map.mpr ⟨m, hm, rfl⟩)
  have hread := Synthetic.Config.ofTree?_toTree (h.restorable m hm)
  have hwrite := p.write_usable hdevice hread (h.restorable m hm).toUsable
  unfold Producer.refuses Producer.settled
  rw [hfield]
  dsimp only [Option.any_some]
  rw [hwrite]
  exact ⟨rfl, rfl⟩

/-- Whatever the members have become, the snapshot makes them what they were. -/
theorem Staffed.restore (h : s.Staffed members) (h' : t.Staffed members')
    (hids : members'.map (·.id) = members.map (·.id)) :
    ∃ u, t.writeSettings s.snapshot = (.ok (), u) ∧ u = { t with producers := u.producers } ∧
      u.producers.map (fun p => (p.id, p.device)) = s.producers.map (fun p => (p.id, p.device)) ∧
      u.producers.map (fun p => (p.id, p.status, p.slot)) =
        t.producers.map fun p => (p.id, p.status, p.slot) := by
  have hsettles : ∀ (i : Nat) (p : Producer), t.producers[i]? = some p →
      ∃ m, members[i]? = some m ∧ p.id = m.id ∧
        p.refuses (KeyMap.ofList (pages members)).entries = false ∧
        p.settled (KeyMap.ofList (pages members)).entries =
          { p with device := .synthetic m.config } := by
    intro i p hp
    obtain ⟨m', hm', hid', hdevice⟩ := h'.member hp
    have hat := congrArg (fun l : List String => l[i]?) hids
    simp only [List.getElem?_map, hm', Option.map_some] at hat
    obtain ⟨m, hm, hid⟩ := Option.map_eq_some_iff.mp hat.symm
    have hname : p.id = m.id := hid'.trans hid.symm
    obtain ⟨hrefuses, hsettled⟩ := h.settles (List.mem_of_getElem? hm) hname hdevice
    exact ⟨m, hm, hname, hrefuses, hsettled⟩
  have hnone : t.producers.filter (·.refuses (KeyMap.ofList (pages members)).entries) = [] := by
    refine List.filter_eq_nil_iff.mpr fun p hp => ?_
    obtain ⟨i, hi⟩ := List.mem_iff_getElem?.mp hp
    obtain ⟨m, -, -, hrefuses, -⟩ := hsettles i p hi
    exact Bool.eq_false_iff.mp hrefuses
  refine ⟨{ t with producers := t.producers.map (·.settled
    (KeyMap.ofList (pages members)).entries) }, ?_, rfl, ?_, ?_⟩
  · rw [h.snapshot_eq, writeSettings_obj, hnone]
    rfl
  · rw [h.producers, List.map_map]
    refine List.ext_getElem? fun i => ?_
    rw [List.getElem?_map, List.getElem?_map]
    cases hp : t.producers[i]? with
    | none =>
      have hlength := congrArg List.length hids
      have hlength' := congrArg List.length h'.producers
      simp only [List.length_map] at hlength hlength'
      have hi := List.getElem?_eq_none_iff.mp hp
      rw [List.getElem?_eq_none (by omega)]
      rfl
    | some p =>
      obtain ⟨m, hm, hname, -, hsettled⟩ := hsettles i p hp
      rw [hm, Option.map_some, Option.map_some, Function.comp, hsettled, hname]
  · rw [List.map_map]
    refine List.map_congr_left fun p hp => ?_
    obtain ⟨i, hi⟩ := List.mem_iff_getElem?.mp hp
    obtain ⟨m, -, -, -, hsettled⟩ := hsettles i p hi
    rw [Function.comp, hsettled]

/-- The session after settings have been written, one call after the other. -/
def writeEach (s : Session) (calls : List Tree) : Session :=
  calls.foldl (fun s settings => (s.writeSettings settings).2) s

theorem Staffed.writeEach (h : s.Staffed members) (calls : List Tree) :
    ∃ members', (s.writeEach calls).Staffed members' ∧
      members'.map (·.id) = members.map (·.id) := by
  induction calls generalizing s members with
  | nil => exact ⟨members, h, rfl⟩
  | cons settings rest ih =>
    obtain ⟨writes, -, hwrites⟩ := writes_of_writeSettings s settings
    obtain ⟨members₁, h₁, hids₁⟩ := h.after hwrites
    obtain ⟨members', h', hids'⟩ := ih h₁
    exact ⟨members', h', hids'.trans hids₁⟩

theorem staffed_ofSetup {setup : Setup} {drivers : Registry} {clock : Nat → Instant}
    {entropy : Nat → Random.Source}
    (hdrivers : ∀ d ∈ setup.producers, d.enabled = true → drivers.Digitizes d)
    (hsetup : ofSetup setup drivers clock entropy = .ok s) : ∃ members, s.Staffed members := by
  obtain ⟨members, hcrew, hrestorable, rfl⟩ := ofSetup_digitizes hdrivers hsetup
  exact ⟨members, List.map_map, hcrew.ids, hrestorable⟩

/-- Producers are known by their identifiers, devices, statuses and slots. -/
theorem producers_ext {ps qs : List Producer}
    (hdevices : ps.map (fun p => (p.id, p.device)) = qs.map fun p => (p.id, p.device))
    (hslots : ps.map (fun p => (p.id, p.status, p.slot)) =
      qs.map fun p => (p.id, p.status, p.slot)) : ps = qs := by
  induction ps generalizing qs with
  | nil => exact (List.map_eq_nil_iff.mp hdevices.symm).symm
  | cons p rest ih =>
    cases qs with
    | nil => nomatch hdevices
    | cons q qs =>
      obtain ⟨hdevice, hdevices⟩ := List.cons.inj hdevices
      obtain ⟨hslot, hslots⟩ := List.cons.inj hslots
      have hpq : p = q := by
        cases p
        cases q
        simp_all
      rw [hpq, ih hdevices hslots]

/-- Take a session of digitizers that has been built for a setup, after whatever has been done to it.
Its snapshot has one entry for each digitizer, its configuration under its identifier. Whatever is
done then, and whatever settings are written, writing the snapshot succeeds and gives every digitizer
exactly the configuration that it had, and nothing else changes. A snapshot that is written at once
changes nothing. -/
theorem settings_restore {setup : Setup} {drivers : Registry} {clock : Nat → Instant}
    {entropy : Nat → Random.Source} {s₀ : Session} {more : List Act}
    (hdrivers : ∀ d ∈ setup.producers, d.enabled = true → drivers.Digitizes d)
    (hsetup : ofSetup setup drivers clock entropy = .ok s₀) (hacts : s₀.after? acts = some s)
    (hmore : s.after? more = some t) :
    (∃ members : List Member,
      s.producers.map (fun p => (p.id, p.device)) =
        members.map (fun m => (m.id, .synthetic m.config)) ∧
      ∃ fields, s.snapshot = .obj fields ∧ (fields.map (·.1)).Nodup ∧
        fields.Perm (members.map fun m => (m.id, m.config.toTree))) ∧
    (∀ calls : List Tree, ∃ u, (t.writeEach calls).writeSettings s.snapshot = (.ok (), u) ∧
      u = { t.writeEach calls with producers := u.producers } ∧
      u.producers.map (fun p => (p.id, p.device)) = s.producers.map (fun p => (p.id, p.device)) ∧
      u.producers.map (fun p => (p.id, p.status, p.slot)) =
        (t.writeEach calls).producers.map fun p => (p.id, p.status, p.slot)) ∧
    s.writeSettings s.snapshot = (.ok (), s) := by
  obtain ⟨members₀, h₀⟩ := staffed_ofSetup hdrivers hsetup
  obtain ⟨members, h, -⟩ := h₀.after hacts
  refine ⟨⟨members, h.producers, _, h.snapshot_eq, KeyMap.nodup_keys _,
    KeyMap.entries_ofList_perm h.nodup_pages⟩, fun calls => ?_, ?_⟩
  · obtain ⟨members₁, h₁, hids₁⟩ := h.after hmore
    obtain ⟨members', h', hids'⟩ := h₁.writeEach calls
    exact h.restore h' (hids'.trans hids₁)
  · obtain ⟨u, hwritten, hu, hdevices, hslots⟩ := h.restore h rfl
    rw [hwritten, hu, producers_ext hdevices hslots]

/-- The first of two digitizers has been moved. Then both are moved, and the snapshot moves them
back. -/
theorem settings_restore_pair :
    (∀ d ∈ pairSetup.producers, d.enabled = true → Registry.builtin.Digitizes d) ∧
    ofSetup pairSetup .builtin (fun _ => default) (fun _ => default) = .ok pairSession ∧
    ∃ s t u, pairSession.after? [.write 0 (moved 5)] = some s ∧ s.after? [.boot 0] = some t ∧
      s.producers.map (·.channels) = [[5], [1]] ∧
      (t.writeEach [.obj [("a", moved 9)], .obj [("b", moved 7)]]).producers.map (·.channels) =
        [[9], [7]] ∧
      (t.writeEach [.obj [("a", moved 9)], .obj [("b", moved 7)]]).writeSettings s.snapshot =
        (.ok (), u) ∧
      u.producers.map (·.channels) = [[5], [1]] := by
  have hdrivers : ∀ d ∈ pairSetup.producers, d.enabled = true → Registry.builtin.Digitizes d :=
    fun d _ _ => Registry.digitizes_builtin d
  obtain ⟨s, t, hs, ht, hfirst, hmoved⟩ : ∃ s t,
      pairSession.after? [.write 0 (moved 5)] = some s ∧ s.after? [.boot 0] = some t ∧
      s.producers.map (·.channels) = [[5], [1]] ∧
      (t.writeEach [.obj [("a", moved 9)], .obj [("b", moved 7)]]).producers.map (·.channels) =
        [[9], [7]] := ⟨_, _, rfl, rfl, by decide +kernel, by decide +kernel⟩
  obtain ⟨-, hrestores, -⟩ := settings_restore hdrivers ofSetup_pair hs ht
  obtain ⟨u, hwritten, -, hdevices, -⟩ :=
    hrestores [.obj [("a", moved 9)], .obj [("b", moved 7)]]
  have hchannels := congrArg (List.map fun e => (Producer.new e.1 e.2).channels) hdevices
  rw [List.map_map, List.map_map] at hchannels
  exact ⟨hdrivers, ofSetup_pair, s, t, u, hs, ht, hfirst, hmoved, hwritten,
    hchannels.trans hfirst⟩

end

end Session

end ListMode
