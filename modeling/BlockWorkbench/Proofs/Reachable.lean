import BlockWorkbench.Graph.Operation
import BlockWorkbench.Proofs.Key
import BlockWorkbench.Proofs.Outcome

/-!
The graphs that a session can reach, and what holds of all of them: no two modules have one name,
and no module has a blank name or that of the block. Ids are not part of the invariant; a loaded
definition may hold ids that no key equals.
-/

namespace BlockWorkbench

/-- What a module may be called. -/
def ValidName (name : String) : Prop := Text.isAllBlank name = false ∧ name ≠ blockName

instance (name : String) : Decidable (ValidName name) := by
  unfold ValidName
  infer_instance

namespace Json

variable {α : Type}

/-- Setting an entry replaces the first one under the same key. -/
theorem setEntry_append {before after : List (Scalar × α)} {k key : Scalar} {v : α}
    (hbefore : ∀ e ∈ before, e.1.same key = false) (hk : k.same key = true) (value : α) :
    setEntry (before ++ (k, v) :: after) key value = before ++ (k, value) :: after := by
  induction before with
  | nil => simp [setEntry, hk]
  | cons e rest ih =>
      have he : e.1.same key = false := hbefore e List.mem_cons_self
      simp only [List.cons_append, setEntry, he, Bool.false_eq_true, if_false]
      rw [ih fun e' he' => hbefore e' (List.mem_cons_of_mem e he')]

/-- Without such an entry it adds one at the end. -/
theorem setEntry_of_forall {entries : List (Scalar × α)} {key : Scalar}
    (h : ∀ e ∈ entries, e.1.same key = false) (value : α) :
    setEntry entries key value = entries ++ [(key, value)] := by
  induction entries with
  | nil => rfl
  | cons e rest ih =>
      have he : e.1.same key = false := h e List.mem_cons_self
      simp only [List.cons_append, setEntry, he, Bool.false_eq_true, if_false]
      rw [ih fun e' he' => h e' (List.mem_cons_of_mem e he')]

/-- The entry found under a key, with what stands before and after it. -/
theorem find?_same_cases (entries : List (Scalar × α)) (key : Scalar) :
    (∃ before k v after, entries = before ++ (k, v) :: after ∧ k.same key = true ∧
      ∀ e ∈ before, e.1.same key = false) ∨ ∀ e ∈ entries, e.1.same key = false := by
  cases h : entries.find? fun e => e.1.same key with
  | none => exact .inr (by simpa using h)
  | some e =>
      obtain ⟨he, before, after, hentries, hbefore⟩ := List.find?_eq_some_iff_append.mp h
      exact .inl ⟨before, e.1, e.2, after, hentries, he, by simpa using hbefore⟩

end Json

namespace Module

theorem checkName_eq_ok {v : Json} {name : String} :
    checkName v = .ok name ↔ v = .str name ∧ ValidName name := by
  cases v with
  | str s =>
      have hs : s = name → (ValidName name ↔ ¬Text.isAllBlank s ∧ s ≠ blockName) := by
        rintro rfl
        simp [ValidName]
      simp only [checkName, Json.str.injEq]
      split
      · simp only [reduceCtorEq, false_iff, not_and]
        intro h hv
        exact ((hs h).mp hv).1 ‹_›
      · split
        · simp only [reduceCtorEq, false_iff, not_and]
          intro h hv
          exact ((hs h).mp hv).2 ‹_›
        · simp only [Except.ok.injEq]
          exact ⟨fun h => ⟨h, (hs h).mpr ⟨‹_›, ‹_›⟩⟩, fun h => h.1⟩
  | null | bool _ | int _ | float _ | list _ | object _ => simp [checkName]

theorem buildMap_name {args : List (String × Json)} {m : Module} (h : buildMap args = .ok m) :
    ValidName m.name := by
  unfold buildMap at h
  obtain ⟨-, -, h⟩ := bind_eq_ok.mp h
  cases hname : Json.field? args "name" with
  | none => simp [hname] at h
  | some v =>
      simp only [hname, bind_eq_ok] at h
      obtain ⟨name, hn, inputs, -, hm⟩ := h
      cases hm
      exact (checkName_eq_ok.mp hn).2

theorem buildStore_name {args : List (String × Json)} {m : Module} (h : buildStore args = .ok m) :
    ValidName m.name := by
  unfold buildStore at h
  obtain ⟨-, -, h⟩ := bind_eq_ok.mp h
  cases hname : Json.field? args "name" with
  | none => simp [hname] at h
  | some v =>
      simp only [hname, bind_eq_ok] at h
      obtain ⟨name, hn, inputs, -, policy, -, hm⟩ := h
      cases hm
      exact (checkName_eq_ok.mp hn).2

theorem ofEntries_name {entries : List (Scalar × Json)} {m : Module}
    (h : ofEntries entries = .ok m) : ValidName m.name := by
  unfold ofEntries at h
  split at h
  · cases h
  · split at h
    · obtain ⟨args, -, h⟩ := bind_eq_ok.mp h
      exact buildMap_name h
    · obtain ⟨args, -, h⟩ := bind_eq_ok.mp h
      exact buildStore_name h
    · cases h

theorem ofDefinition_name {v : Json} {m : Module} (h : ofDefinition v = .ok m) :
    ValidName m.name := by
  obtain ⟨entries, -, h⟩ := bind_eq_ok.mp h
  exact ofEntries_name h

theorem newMap_name {v : Json} {m : Module} (h : newMap v = .ok m) : ValidName m.name := by
  obtain ⟨name, hn, h⟩ := bind_eq_ok.mp h
  cases h
  exact (checkName_eq_ok.mp hn).2

theorem newStore_name {v source : Json} {m : Module} (h : newStore v source = .ok m) :
    ValidName m.name := by
  obtain ⟨name, hn, h⟩ := bind_eq_ok.mp h
  cases h
  exact (checkName_eq_ok.mp hn).2

end Module

namespace Graph

/-- The graphs that operations lead to from the empty one, whether they succeed or not. -/
inductive Reachable : Graph → Prop
  | empty : Reachable {}
  | perform {g : Graph} (op : Operation) : Reachable g → Reachable (g.perform op).2

/-- Names tell the modules of a graph apart, and none of them means the block. -/
structure WellNamed (g : Graph) : Prop where
  nodup : g.names.Nodup
  valid : ∀ name ∈ g.names, ValidName name

/-- A name that no module has is found nowhere. -/
theorem find?_eq_none_iff {g : Graph} {name : String} :
    g.find? (.str name) = none ↔ name ∉ g.names := by
  simp only [find?, List.find?_eq_none, names, List.mem_map, beq_iff_eq]
  exact ⟨fun h ⟨e, he, hn⟩ => h e he hn, fun h e he hn => h ⟨e, he, hn⟩⟩

/-- Only modules have the names under which they are found. -/
theorem find?_eq_some {g : Graph} {input : Json} {e : Scalar × Module}
    (h : g.find? input = some e) : e ∈ g.entries ∧ input = .str e.2.name := by
  unfold find? at h
  split at h
  · refine ⟨List.mem_of_find?_eq_some h, ?_⟩
    have := List.find?_some h
    simp only [beq_iff_eq] at this
    rw [this]
  · cases h

/-! ### What operations make of a graph -/

theorem insert_eq_ok {g : Graph} {m : Module} {r : Scalar × Graph} (h : g.insert m = .ok r) :
    m.name ∉ g.names ∧ r = (idOf g.next, { g.put (idOf g.next) m with next := succ g.next }) := by
  unfold insert at h
  split at h
  · cases h
  · rename_i hnone
    exact ⟨find?_eq_none_iff.mp (by simpa using hnone), (Except.ok.inj h).symm⟩

theorem remove_eq_ok {g : Graph} {id : Json} {r : Module × Graph} (h : g.remove id = .ok r) :
    ∃ key, r.2 = { g with entries := g.entries.filter fun e => !e.1.same key } := by
  unfold remove at h
  split at h
  · cases h
  · obtain ⟨key, -, h⟩ := bind_eq_ok.mp h
    split at h
    · cases h
      exact ⟨key, rfl⟩
    · cases h

/-- What an operation may make of a graph: the same graph, if it fails or only looks, or what the
change that it stands for makes. A rename may fail and leave another graph. -/
inductive Makes (g : Graph) : Operation → Graph → Prop
  | same (op : Operation) : Makes g op g
  | insert {definition : Json} {m : Module} {r : Scalar × Graph}
      (hm : Module.ofDefinition definition = .ok m) (hr : g.insert m = .ok r) :
      Makes g (.insert definition) r.2
  | newMap {name : Json} {m : Module} {r : Scalar × Graph} (hm : Module.newMap name = .ok m)
      (hr : g.insert m = .ok r) : Makes g (.newMap name) r.2
  | newStore {name source : Json} {m : Module} {r : Scalar × Graph}
      (hm : Module.newStore name source = .ok m) (hr : g.insert m = .ok r) :
      Makes g (.newStore name source) r.2
  | load {definition : Json} {g' : Graph} (hg : ofDefinition definition = .ok g') :
      Makes g (.load definition) g'
  | reload {g' : Graph} (hg : ofDefinition g.definition = .ok g') : Makes g .reload g'
  | remove {id : Json} {r : Module × Graph} (hr : g.remove id = .ok r) : Makes g (.remove id) r.2
  | setInputs {id inputs : Json} {g' : Graph} (hg : g.setInputs id inputs = .ok g') :
      Makes g (.setInputs id inputs) g'
  | setCode {id code : Json} {g' : Graph} (hg : g.setCode id code = .ok g') :
      Makes g (.setCode id code) g'
  | setUpdatePolicy {id policy : Json} {g' : Graph} (hg : g.setUpdatePolicy id policy = .ok g') :
      Makes g (.setUpdatePolicy id policy) g'
  | rename (id newName : Json) : Makes g (.rename id newName) (g.rename id newName).2

theorem makes_changed {g : Graph} {op : Operation} {r : Except Fault (Answer × Graph)}
    (h : ∀ p, r = .ok p → g.Makes op p.2) : g.Makes op (g.changed r).2 := by
  cases r with
  | error f => exact .same op
  | ok p => exact h p rfl

theorem makes_perform (g : Graph) (op : Operation) : g.Makes op (g.perform op).2 := by
  have hinsert {made : Except Fault Module}
      (h : ∀ m r, made = .ok m → g.insert m = .ok r → g.Makes op r.2) :
      g.Makes op (g.changed do
        let r ← g.insert (← made)
        return (.value r.1.toJson, r.2)).2 := by
    refine makes_changed fun p hp => ?_
    obtain ⟨m, hm, hp⟩ := bind_eq_ok.mp hp
    obtain ⟨r, hr, hp⟩ := bind_eq_ok.mp hp
    cases hp
    exact h m r hm hr
  have hset {made : Except Fault Graph} (h : ∀ g', made = .ok g' → g.Makes op g') :
      g.Makes op (g.changed do return (.nothing, ← made)).2 := by
    refine makes_changed fun p hp => ?_
    obtain ⟨g', hg', hp⟩ := bind_eq_ok.mp hp
    cases hp
    exact h g' hg'
  cases op with
  | insert _ => exact hinsert fun _ _ => .insert
  | newMap _ => exact hinsert fun _ _ => .newMap
  | newStore _ _ => exact hinsert fun _ _ => .newStore
  | load _ => exact hset fun _ => .load
  | reload => exact hset fun _ => .reload
  | remove id =>
      refine makes_changed fun p hp => ?_
      obtain ⟨r, hr, hp⟩ := bind_eq_ok.mp hp
      cases hp
      exact .remove hr
  | setInputs _ _ => exact hset fun _ => .setInputs
  | setCode _ _ => exact hset fun _ => .setCode
  | setUpdatePolicy _ _ => exact hset fun _ => .setUpdatePolicy
  | rename id newName =>
      have hsame : (g.perform (.rename id newName)).2 = (g.rename id newName).2 := by
        rw [Graph.perform]
        split <;> rename_i hr <;> rw [hr]
      exact hsame ▸ .rename id newName
  | all | size | contains _ | dumps _ | equal _ _ | inspect _ | generate | validate
  | register _ | resolveInput _ | get _ | find _ | names | dependents _ | definition =>
      exact .same _

namespace WellNamed

variable {g : Graph}

theorem empty : WellNamed {} := ⟨List.nodup_nil, by simp [names]⟩

/-- A module under a new name may be put anywhere. -/
theorem put (h : g.WellNamed) (id : Scalar) {m : Module} (hm : ValidName m.name)
    (hnew : m.name ∉ g.names) : (g.put id m).WellNamed := by
  -- The module takes the place of one with this id, or is added behind all others.
  obtain ⟨before, k, v, after, hg, hk, hbefore⟩ | hnone := Json.find?_same_cases g.entries id
  · have hset : Json.setEntry g.entries id m = before ++ (k, m) :: after := by
      rw [hg, Json.setEntry_append hbefore hk]
    have hnames : (g.put id m).names =
        before.map (·.2.name) ++ m.name :: after.map (·.2.name) := by
      simp [names, Graph.put, hset]
    have hold : g.names = before.map (·.2.name) ++ v.name :: after.map (·.2.name) := by
      simp [names, hg]
    obtain ⟨hnodup, hvalid⟩ := h
    rw [hold] at hnodup hvalid hnew
    refine ⟨?_, ?_⟩
    · rw [List.nodup_middle, List.nodup_cons] at hnodup
      rw [hnames, List.nodup_middle, List.nodup_cons]
      simp only [List.mem_append, List.mem_cons, not_or] at hnew ⊢
      exact ⟨⟨hnew.1, hnew.2.2⟩, hnodup.2⟩
    · rw [hnames]
      intro n hn
      simp only [List.mem_append, List.mem_cons] at hn hvalid
      obtain hn | rfl | hn := hn
      · exact hvalid n (.inl hn)
      · exact hm
      · exact hvalid n (.inr (.inr hn))
  · have hnames : (g.put id m).names = g.names ++ [m.name] := by
      simp [names, Graph.put, Json.setEntry_of_forall hnone m]
    refine ⟨?_, ?_⟩
    · rw [hnames, List.nodup_append]
      refine ⟨h.nodup, by simp, ?_⟩
      rintro a ha b hb rfl
      exact hnew (List.mem_singleton.mp hb ▸ ha)
    · rw [hnames]
      intro n hn
      obtain hn | hn := List.mem_append.mp hn
      · exact h.valid n hn
      · rw [List.mem_singleton.mp hn]
        exact hm

/-- What changes no name keeps the invariant. -/
theorem of_names_eq {g' : Graph} (h : g.WellNamed) (hnames : g'.names = g.names) :
    g'.WellNamed :=
  ⟨hnames ▸ h.nodup, hnames ▸ h.valid⟩

theorem insert (h : g.WellNamed) {m : Module} (hm : ValidName m.name) {r : Scalar × Graph}
    (hr : g.insert m = .ok r) : r.2.WellNamed := by
  obtain ⟨hfree, rfl⟩ := insert_eq_ok hr
  exact of_names_eq (h.put (idOf g.next) hm hfree) rfl

theorem load (h : g.WellNamed) {state : Json} {g' : Graph} (hl : g.load state = .ok g') :
    g'.WellNamed := by
  unfold Graph.load at hl
  obtain ⟨entries, -, hl⟩ := bind_eq_ok.mp hl
  obtain ⟨m, hm, hl⟩ := bind_eq_ok.mp hl
  have hvalid : ValidName m.name := Module.ofEntries_name hm
  split at hl
  · obtain ⟨r, hr, hl⟩ := bind_eq_ok.mp hl
    cases hl
    exact h.insert hvalid hr
  · obtain ⟨r, hr, hl⟩ := bind_eq_ok.mp hl
    cases hl
    exact h.insert hvalid hr
  · split at hl
    · cases hl
    · rename_i hnone
      obtain ⟨key, -, hl⟩ := bind_eq_ok.mp hl
      cases hl
      exact h.put key hvalid (find?_eq_none_iff.mp (by simpa using hnone))

theorem foldlM_load {states : List Json} {g' : Graph} (h : g.WellNamed)
    (hl : states.foldlM Graph.load g = .ok g') : g'.WellNamed :=
  foldlM_keeps hl h fun _ _ _ _ h hl => h.load hl

theorem ofDefinition {v : Json} {g' : Graph} (hd : Graph.ofDefinition v = .ok g') :
    g'.WellNamed := by
  unfold Graph.ofDefinition at hd
  split at hd
  · split at hd
    · split at hd <;> cases hd
    · split at hd
      · cases hd
      · obtain ⟨states, -, hd⟩ := bind_eq_ok.mp hd
        obtain ⟨loaded, hloaded, hd⟩ := bind_eq_ok.mp hd
        obtain ⟨next, -, hd⟩ := bind_eq_ok.mp hd
        cases hd
        exact of_names_eq (foldlM_load empty hloaded) rfl
  · cases hd

theorem remove (h : g.WellNamed) {id : Json} {r : Module × Graph} (hr : g.remove id = .ok r) :
    r.2.WellNamed := by
  obtain ⟨key, hg⟩ := remove_eq_ok hr
  have hsub : r.2.names.Sublist g.names := hg ▸ List.filter_sublist.map _
  exact ⟨h.nodup.sublist hsub, fun n hn => h.valid n (hsub.subset hn)⟩

end WellNamed

/-- The entry of an id, and what changing it does to the entries. -/
theorem lookup_eq_ok {g : Graph} {id : Json} {e : Scalar × Module} (h : g.lookup id = .ok e) :
    ∃ before after, g.entries = before ++ e :: after ∧
      ∀ m, (g.put e.1 m).entries = before ++ (e.1, m) :: after := by
  obtain ⟨key, -, h⟩ := bind_eq_ok.mp h
  split at h
  · rename_i e' hfind
    cases h
    obtain ⟨he, before, after, hentries, hbefore⟩ := List.find?_eq_some_iff_append.mp hfind
    refine ⟨before, after, hentries, fun m => ?_⟩
    have hother : ∀ e' ∈ before, e'.1.same e.1 = false := by
      intro e' he'
      rw [Scalar.same_congr he]
      simpa using hbefore e' he'
    have hself : e.1.same e.1 = true := Scalar.same_trans he (Scalar.same_symm he)
    simpa only [put, hentries] using Json.setEntry_append hother hself m
  · cases h

/-- A change under an id that leaves the name alone leaves all names alone. -/
theorem names_modify {g g' : Graph} {id : Json} {f : Module → Except Fault Module}
    (hf : ∀ m m', f m = .ok m' → m'.name = m.name) (h : g.modify id f = .ok g') :
    g'.names = g.names := by
  unfold modify at h
  obtain ⟨e, he, h⟩ := bind_eq_ok.mp h
  obtain ⟨m', hm', h⟩ := bind_eq_ok.mp h
  cases h
  obtain ⟨before, after, hentries, hput⟩ := lookup_eq_ok he
  simp only [names, hput, hentries, List.map_append, List.map_cons, hf _ _ hm']

theorem names_redirectAll (g : Graph) (old new : String) :
    (g.redirectAll old new).names = g.names := by
  simp [names, redirectAll, Function.comp_def]

theorem ne_name_of_free {g : Graph} {id : Json} {key : Scalar} {m : Module} {new : String}
    (hm : g.lookup id = .ok (key, m)) (hfree : new ∉ g.names) : new ≠ m.name := by
  obtain ⟨before, after, hentries, -⟩ := lookup_eq_ok hm
  rintro rfl
  exact hfree (by simp [names, hentries])

/-- A rename to a valid name that is free. -/
theorem rename_of_free {g : Graph} {id : Json} {key : Scalar} {m : Module} {code new : String}
    (hm : g.lookup id = .ok (key, m)) (hcode : m.code = .str code) (hvalid : ValidName new)
    (hfree : new ∉ g.names) :
    g.rename id (.str new) = (.ok (.renamed m.name new), (g.put key { m with
      name := new, code := .str (Handler.rename code m.name new) }).redirectAll m.name new) := by
  have hname := Module.checkName_eq_ok.mpr ⟨rfl, hvalid⟩
  simp only [rename, hm, hname, ok_bind, pure_eq_ok, if_neg (ne_name_of_free hm hfree),
    find?_eq_none_iff.mpr hfree, Option.isSome_none, Bool.false_eq_true, if_false, hcode]

/-- Code that is not text stops it after the name was assigned. -/
theorem rename_of_free_nonText {g : Graph} {id : Json} {key : Scalar} {m : Module} {new : String}
    (hm : g.lookup id = .ok (key, m)) (hcode : ∀ code, m.code ≠ .str code)
    (hvalid : ValidName new) (hfree : new ∉ g.names) :
    g.rename id (.str new) =
      (.error (.notText m.code.typeName), g.put key { m with name := new }) := by
  have hname := Module.checkName_eq_ok.mpr ⟨rfl, hvalid⟩
  simp only [rename, hm, hname, ok_bind, pure_eq_ok, if_neg (ne_name_of_free hm hfree),
    find?_eq_none_iff.mpr hfree, Option.isSome_none, Bool.false_eq_true, if_false]

/-- A rename fails at once, has nothing to do, or meets a valid name that is free. -/
theorem rename_cases (g : Graph) (id newName : Json) :
    (∃ f, g.rename id newName = (.error f, g)) ∨
    (∃ key m, g.lookup id = .ok (key, m) ∧ newName = .str m.name ∧
      g.rename id newName = (.ok .unchanged, g)) ∨
    ∃ key m new, g.lookup id = .ok (key, m) ∧ newName = .str new ∧ ValidName new ∧
      new ∉ g.names := by
  unfold rename
  split
  · exact .inl ⟨_, rfl⟩
  · rename_i key m new h
    obtain ⟨e, he, h⟩ := bind_eq_ok.mp h
    obtain ⟨n, hn, h⟩ := bind_eq_ok.mp h
    cases h
    obtain ⟨hname, hvalid⟩ := Module.checkName_eq_ok.mp hn
    by_cases hsame : new = e.2.name
    · rw [if_pos hsame]
      exact .inr (.inl ⟨e.1, e.2, he, hsame ▸ hname, rfl⟩)
    · rw [if_neg hsame]
      split
      · exact .inl ⟨_, rfl⟩
      · rename_i hnone
        have hfree : new ∉ g.names := find?_eq_none_iff.mp (by simpa using hnone)
        exact .inr (.inr ⟨e.1, e.2, new, he, hname, hvalid, hfree⟩)

namespace WellNamed

variable {g : Graph}

theorem modify (h : g.WellNamed) {g' : Graph} {id : Json} {f : Module → Except Fault Module}
    (hf : ∀ m m', f m = .ok m' → m'.name = m.name) (hg : g.modify id f = .ok g') :
    g'.WellNamed :=
  of_names_eq h (names_modify hf hg)

theorem rename (h : g.WellNamed) (id newName : Json) : (g.rename id newName).2.WellNamed := by
  obtain ⟨f, hr⟩ | ⟨key, m, -, -, hr⟩ | ⟨key, m, new, hm, rfl, hvalid, hfree⟩ :=
    rename_cases g id newName
  · rwa [hr]
  · rwa [hr]
  · by_cases hcode : ∃ code, m.code = .str code
    · obtain ⟨code, hcode⟩ := hcode
      rw [rename_of_free hm hcode hvalid hfree]
      exact of_names_eq (h.put key (m := { m with
        name := new, code := .str (Handler.rename code m.name new) }) hvalid hfree)
        (names_redirectAll ..)
    · rw [rename_of_free_nonText hm (fun code h => hcode ⟨code, h⟩) hvalid hfree]
      exact h.put key (m := { m with name := new }) hvalid hfree

theorem setInputs (h : g.WellNamed) {id inputs : Json} {g' : Graph}
    (hs : g.setInputs id inputs = .ok g') : g'.WellNamed := by
  obtain ⟨items, -, hs⟩ := bind_eq_ok.mp hs
  exact h.modify (fun m m' hm => by cases hm; rfl) hs

theorem setCode (h : g.WellNamed) {id code : Json} {g' : Graph}
    (hs : g.setCode id code = .ok g') : g'.WellNamed :=
  h.modify (fun m m' hm => by cases hm; rfl) hs

theorem setUpdatePolicy (h : g.WellNamed) {id policy : Json} {g' : Graph}
    (hs : g.setUpdatePolicy id policy = .ok g') : g'.WellNamed := by
  refine h.modify (fun m m' hm => ?_) hs
  split at hm
  · cases hm
  · obtain ⟨p, -, hm⟩ := bind_eq_ok.mp hm
    cases hm
    rfl

theorem makes (h : g.WellNamed) {op : Operation} {g' : Graph} (hmade : g.Makes op g') :
    g'.WellNamed := by
  cases hmade with
  | same => exact h
  | insert hm hr => exact h.insert (Module.ofDefinition_name hm) hr
  | newMap hm hr => exact h.insert (Module.newMap_name hm) hr
  | newStore hm hr => exact h.insert (Module.newStore_name hm) hr
  | load hg | reload hg => exact ofDefinition hg
  | remove hr => exact h.remove hr
  | setInputs hg => exact h.setInputs hg
  | setCode hg => exact h.setCode hg
  | setUpdatePolicy hg => exact h.setUpdatePolicy hg
  | rename id newName => exact h.rename id newName

/-- Every operation keeps the invariant, a failing one as well. -/
theorem perform (h : g.WellNamed) (op : Operation) : (g.perform op).2.WellNamed :=
  h.makes (g.makes_perform op)

end WellNamed

theorem Reachable.wellNamed {g : Graph} (h : g.Reachable) : g.WellNamed := by
  induction h with
  | empty => exact .empty
  | perform op _ ih => exact ih.perform op

/-- The block is no module. -/
theorem WellNamed.find?_block {g : Graph} (h : g.WellNamed) : g.find? (.str blockName) = none :=
  find?_eq_none_iff.mpr fun hmem => (h.valid blockName hmem).2 rfl

theorem reachable_starter : starter.Reachable := by
  have h : starter = (((({} : Graph).perform (.newMap (.str "foo"))).2).perform
      (.newStore (.str "test_store") (.str "foo"))).2 := by rfl
  rw [h]
  exact .perform _ (.perform _ .empty)

end Graph

end BlockWorkbench
