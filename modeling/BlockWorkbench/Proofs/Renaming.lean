import BlockWorkbench.Proofs.Generation

/-!
A rename acts on every module alike: whatever has the old name or reads it has or reads the new
one. Names tell modules apart before and after, so each input goes on meaning the module it
meant; only an input that named nothing and equals the new name comes to mean something.
-/

namespace BlockWorkbench

/-- A name after a rename. -/
def renamedName (old new name : String) : String := if name = old then new else name

/-- A module after a rename: only the module of the old name changes its name and code. -/
def Module.renamed (old new : String) (m : Module) : Module :=
  { m with
    name := renamedName old new m.name
    code := if m.name = old then .str (Handler.rename m.codeText old new) else m.code
    inputs := m.inputs.map (Graph.redirect old new) }

theorem Module.renamed_of_ne {m : Module} {old : String} (h : m.name ≠ old) (new : String) :
    m.renamed old new = { m with inputs := m.inputs.map (Graph.redirect old new) } := by
  simp [renamed, renamedName, h]

theorem Module.renamed_name {m : Module} {code : String} (hcode : m.code = .str code)
    (new : String) : m.renamed m.name new = { m with
      name := new, code := .str (Handler.rename code m.name new)
      inputs := m.inputs.map (Graph.redirect m.name new) } := by
  simp [renamed, renamedName, codeText, hcode]

theorem renamedName_self (name n : String) : renamedName name name n = n := by
  unfold renamedName
  split <;> simp_all

/-- Different names stay different if none of them is the new one. -/
theorem renamedName_inj {old new a b : String} (ha : a ≠ new) (hb : b ≠ new)
    (h : renamedName old new a = renamedName old new b) : a = b := by
  unfold renamedName at h
  split at h <;> split at h <;> simp_all

/-- Going back undoes a rename of any other name than the new one. -/
theorem renamedName_back {old new name : String} (h : name ≠ new) :
    renamedName new old (renamedName old new name) = name := by
  unfold renamedName
  split_ifs <;> simp_all

theorem Json.same_str_iff {v : Json} {s : String} : v.same (.str s) = true ↔ v = .str s := by
  cases v <;> simp [Json.same, Json.number?]

namespace Graph

theorem redirect_str (old new s : String) :
    redirect old new (.str s) = .str (renamedName old new s) := by
  simp only [redirect, renamedName]
  split <;> rfl

theorem redirect_of_ne {old new : String} {input : Json} (h : input ≠ .str old) :
    redirect old new input = input := by
  cases input with
  | str s =>
      have hs : s ≠ old := fun hs => h (congrArg Json.str hs)
      rw [redirect_str, renamedName, if_neg hs]
  | null | bool _ | int _ | float _ | list _ | object _ => rfl

/-- An input reads the same module after a rename as before, unless it named the new one. -/
theorem redirect_eq_iff {old new name : String} {input : Json} (hinput : input ≠ .str new)
    (hname : name ≠ new) :
    redirect old new input = .str (renamedName old new name) ↔ input = .str name := by
  constructor
  · intro h
    by_cases hold : input = .str old
    · subst hold
      rw [redirect_str, Json.str.injEq] at h
      have hne : old ≠ new := fun h' => hinput (congrArg Json.str h')
      exact congrArg Json.str (renamedName_inj hne hname h)
    · rw [redirect_of_ne hold] at h
      subst h
      rw [renamedName] at hold hinput ⊢
      split
      · simp_all
      · rfl
  · rintro rfl
    exact redirect_str old new name

/-- Each module is found under its name, and under no other. -/
theorem WellNamed.find?_eq_some_iff {g : Graph} (h : g.WellNamed) {input : Json}
    {e : Scalar × Module} :
    g.find? input = some e ↔ e ∈ g.entries ∧ input = .str e.2.name := by
  refine ⟨find?_eq_some, ?_⟩
  rintro ⟨he, rfl⟩
  cases hfind : g.find? (.str e.2.name) with
  | none => exact absurd (List.mem_map_of_mem he) (find?_eq_none_iff.mp hfind)
  | some e' =>
      obtain ⟨he', hname⟩ := find?_eq_some hfind
      rw [Option.some.injEq]
      exact List.inj_on_of_nodup_map h.nodup he' he (Json.str.inj hname).symm

/-- Whether a module reads another is not changed by a rename. -/
theorem any_reads_renamed {old new : String} {m parent : Module}
    (hinputs : ∀ input ∈ m.inputs, input ≠ .str new) (hparent : parent.name ≠ new) :
    ((m.renamed old new).inputs.any fun input =>
        input.same (.str (parent.renamed old new).name)) =
      m.inputs.any fun input => input.same (.str parent.name) := by
  rw [Bool.eq_iff_iff, List.any_eq_true, List.any_eq_true]
  simp only [Json.same_str_iff, Module.renamed, List.mem_map, exists_exists_and_eq_and]
  constructor
  · rintro ⟨input, hmem, hread⟩
    exact ⟨input, hmem, (redirect_eq_iff (hinputs input hmem) hparent).mp hread⟩
  · rintro ⟨input, hmem, hread⟩
    exact ⟨input, hmem, (redirect_eq_iff (hinputs input hmem) hparent).mpr hread⟩

/-- What a rename that changes a name makes of a graph. -/
structure Renames (g : Graph) (old new : String) (g' : Graph) : Prop where
  wellNamed : g.WellNamed
  old_mem : old ∈ g.names
  new_valid : ValidName new
  new_notMem : new ∉ g.names
  entries : g'.entries = g.entries.map fun e => (e.1, e.2.renamed old new)
  wellNamed' : g'.WellNamed

/-- The modules around one have other names. -/
theorem WellNamed.ne_name {g : Graph} (h : g.WellNamed) {before after : List (Scalar × Module)}
    {e : Scalar × Module} (hentries : g.entries = before ++ e :: after) :
    ∀ e' ∈ before ++ after, e'.2.name ≠ e.2.name := by
  have hnodup := h.nodup
  simp only [names, hentries, List.map_append, List.map_cons] at hnodup
  rw [List.nodup_middle, List.nodup_cons, ← List.map_append] at hnodup
  exact fun e' he hname => hnodup.1 (hname ▸ List.mem_map_of_mem he)

/-- Renaming a module whose code is text. -/
theorem renames_of_rename {g : Graph} (h : g.WellNamed) {id : Json} {key : Scalar} {m : Module}
    {code new : String} (hm : g.lookup id = .ok (key, m)) (hcode : m.code = .str code)
    (hvalid : ValidName new) (hnew : new ∉ g.names) :
    g.Renames m.name new ((g.put key { m with
      name := new, code := .str (Handler.rename code m.name new) }).redirectAll m.name new) := by
  obtain ⟨before, after, hentries, hput⟩ := lookup_eq_ok hm
  have hmem : m.name ∈ g.names := by simp [names, hentries]
  have hother := h.ne_name hentries
  have hrest : ∀ e ∈ before ++ after,
      (e.1, { e.2 with inputs := e.2.inputs.map (redirect m.name new) }) =
        (e.1, e.2.renamed m.name new) := by
    intro e he
    rw [Module.renamed_of_ne (hother e he)]
  refine ⟨h, hmem, hvalid, hnew, ?_, ?_⟩
  · simp only [redirectAll, hput, hentries, List.map_append, List.map_cons]
    rw [Module.renamed_name hcode]
    rw [List.map_congr_left fun e he => hrest e (List.mem_append_left after he)]
    rw [List.map_congr_left fun e he => hrest e (List.mem_append_right before he)]
  · exact (h.put key (m := { m with
      name := new, code := .str (Handler.rename code m.name new) }) hvalid hnew).of_names_eq
        (names_redirectAll ..)

namespace Renames

variable {g g' : Graph} {old new : String}

theorem ids (h : g.Renames old new g') : g'.ids = g.ids := by
  simp [Graph.ids, h.entries, Function.comp_def]

theorem size (h : g.Renames old new g') : g'.size = g.size := by simp [Graph.size, h.entries]

theorem names (h : g.Renames old new g') : g'.names = g.names.map (renamedName old new) := by
  simp [Graph.names, h.entries, Function.comp_def, Module.renamed]

theorem ne_new (h : g.Renames old new g') {e : Scalar × Module} (he : e ∈ g.entries) :
    e.2.name ≠ new :=
  fun hname => h.new_notMem (hname ▸ List.mem_map_of_mem he)

/-- An input that named a module names the same one afterwards. -/
theorem find?_redirect (h : g.Renames old new g') {input : Json} {e : Scalar × Module}
    (hfind : g.find? input = some e) :
    g'.find? (redirect old new input) = some (e.1, e.2.renamed old new) := by
  obtain ⟨he, rfl⟩ := h.wellNamed.find?_eq_some_iff.mp hfind
  refine h.wellNamed'.find?_eq_some_iff.mpr ⟨?_, redirect_str ..⟩
  rw [h.entries]
  exact List.mem_map_of_mem he

/-- An input that named none does so afterwards, unless it is the new name. -/
theorem find?_eq_none (h : g.Renames old new g') {input : Json} (hfind : g.find? input = none)
    (hinput : input ≠ .str new) :
    redirect old new input = input ∧ g'.find? input = none := by
  have hold : input ≠ .str old := by
    rintro rfl
    exact find?_eq_none_iff.mp hfind h.old_mem
  refine ⟨redirect_of_ne hold, ?_⟩
  cases hfind' : g'.find? input with
  | none => rfl
  | some e =>
      obtain ⟨he, hname⟩ := find?_eq_some hfind'
      rw [h.entries] at he
      obtain ⟨e₀, he₀, rfl⟩ := List.mem_map.mp he
      have hread : redirect old new input = .str (renamedName old new e₀.2.name) :=
        (redirect_of_ne hold).trans hname
      rw [redirect_eq_iff hinput (h.ne_new he₀)] at hread
      rw [h.wellNamed.find?_eq_some_iff.mpr ⟨he₀, hread⟩] at hfind
      cases hfind

theorem find?_new (h : g.Renames old new g') {e : Scalar × Module} (he : e ∈ g.entries)
    (hname : e.2.name = old) :
    g'.find? (.str new) = some (e.1, e.2.renamed old new) := by
  have hfind := h.wellNamed.find?_eq_some_iff.mpr ⟨he, rfl⟩
  have := h.find?_redirect hfind
  rwa [redirect_str, hname, renamedName, if_pos rfl] at this

theorem find?_old (h : g.Renames old new g') : g'.find? (.str old) = none := by
  rw [find?_eq_none_iff, h.names]
  intro hmem
  obtain ⟨name, hname, heq⟩ := List.mem_map.mp hmem
  have hne : old ≠ new := fun heq => h.new_notMem (heq ▸ h.old_mem)
  unfold renamedName at heq
  split at heq
  · exact hne heq.symm
  · exact absurd heq ‹_›

/-- What stood for something still does. -/
theorem resolve?_isSome (h : g.Renames old new g') {input : Json}
    (hres : (g.resolve? input).isSome) : (g'.resolve? (redirect old new input)).isSome := by
  cases hfind : g.find? input with
  | some e => simp [resolve?, h.find?_redirect hfind]
  | none =>
      have hblock : input = .str blockName := by
        simp only [resolve?, hfind] at hres
        split at hres
        · split at hres
          · rename_i s hs
            rw [hs]
          · simp at hres
        · simp at hres
      have hinput : input ≠ .str new := by
        rintro rfl
        exact h.new_valid.2 (Json.str.inj hblock)
      obtain ⟨hredirect, hfind'⟩ := h.find?_eq_none hfind hinput
      subst hblock
      rw [hredirect]
      simp [resolve?, hfind']

/-- The readers of a module stay where they are. -/
theorem readersAt (h : g.Renames old new g')
    (hinputs : ∀ e ∈ g.entries, ∀ input ∈ e.2.inputs, input ≠ .str new) (place : Nat) :
    g'.readersAt place = g.readersAt place := by
  unfold Graph.readersAt
  rw [h.size, h.entries, List.getElem?_map]
  cases hplace : g.entries[place]? with
  | none => rfl
  | some parent =>
      simp only [Option.map_some, List.getElem?_map]
      congr 1
      funext i
      cases hi : g.entries[i]? with
      | none => rfl
      | some e =>
          exact any_reads_renamed (hinputs e (List.mem_of_getElem? hi))
            (h.ne_new (List.mem_of_getElem? hplace))

theorem search (h : g.Renames old new g')
    (hinputs : ∀ e ∈ g.entries, ∀ input ∈ e.2.inputs, input ≠ .str new) (fuel : Nat)
    (remaining found : List Nat) :
    g'.search fuel remaining found = g.search fuel remaining found := by
  induction fuel generalizing remaining found with
  | zero => rfl
  | succ fuel ih =>
      cases remaining with
      | nil => rfl
      | cons place remaining => simp only [Graph.search, h.readersAt hinputs, ih]

theorem dependents (h : g.Renames old new g')
    (hinputs : ∀ e ∈ g.entries, ∀ input ∈ e.2.inputs, input ≠ .str new) (id : Json) :
    g'.dependents id = g.dependents id := by
  simp only [Graph.dependents, h.ids, h.size, h.search hinputs]

end Renames

/-- What an input means before and after a rename to `new`: a module at the same place with the
same id, the block, or nothing. -/
structure InputKept (g g' : Graph) (new : String) (input input' : Json) : Prop where
  module : ∀ (place : Nat) (id : Scalar) (m : Module), g.entries[place]? = some (id, m) →
    g.find? input = some (id, m) →
    ∃ m', g'.entries[place]? = some (id, m') ∧ g'.find? input' = some (id, m')
  block : input = .str blockName → input' = .str blockName ∧ g'.resolve? input' = some .block
  unresolved : g.resolve? input = none → input ≠ .str new →
    input' = input ∧ g'.resolve? input' = none

/-- What a rename of the module at `place` keeps of the module at `i`. -/
structure ModuleKept (g g' : Graph) (place : Nat) (new : String) (i : Nat) (m m' : Module) :
    Prop where
  kind : m'.kind = m.kind
  editing : m'.editing = m.editing
  other : i ≠ place → m'.name = m.name ∧ m'.code = m.code
  renamed : i = place → m'.name = new
  inputs : List.Forall₂ (InputKept g g' new) m.inputs m'.inputs

theorem resolve?_block {g : Graph} (h : g.WellNamed) :
    g.resolve? (.str blockName) = some .block := by
  simp [resolve?, h.find?_block]

theorem resolve?_eq_none {g : Graph} {input : Json} (h : g.find? input = none)
    (hblock : input ≠ .str blockName) : g.resolve? input = none := by
  simp only [resolve?, h]
  split
  · exact if_neg fun hs => hblock (congrArg Json.str hs)
  · rfl

theorem find?_of_resolve? {g : Graph} {input : Json} (h : g.resolve? input = none) :
    g.find? input = none := by
  unfold resolve? at h
  split at h
  · cases h
  · assumption

theorem InputKept.refl {g : Graph} (h : g.WellNamed) (new : String) (input : Json) :
    InputKept g g new input input where
  module _ _ m hplace hfind := ⟨m, hplace, hfind⟩
  block hblock := ⟨hblock, hblock ▸ resolve?_block h⟩
  unresolved hres _ := ⟨rfl, hres⟩

theorem Renames.inputKept {g g' : Graph} {old new : String} (h : g.Renames old new g')
    (input : Json) : InputKept g g' new input (redirect old new input) where
  module place id m hplace hfind := by
    refine ⟨m.renamed old new, ?_, h.find?_redirect hfind⟩
    rw [h.entries, List.getElem?_map, hplace]
    rfl
  block hblock := by
    have hnew : input ≠ .str new := by
      rintro rfl
      exact h.new_valid.2 (Json.str.inj hblock)
    have hredirect := (h.find?_eq_none (hblock ▸ h.wellNamed.find?_block) hnew).1
    rw [hredirect]
    exact ⟨hblock, hblock ▸ resolve?_block h.wellNamed'⟩
  unresolved hres hnew := by
    obtain ⟨hredirect, hfind⟩ := h.find?_eq_none (find?_of_resolve? hres) hnew
    refine ⟨hredirect, ?_⟩
    rw [hredirect]
    refine resolve?_eq_none hfind ?_
    rintro rfl
    rw [resolve?_block h.wellNamed] at hres
    cases hres

theorem WellNamed.place_unique {g : Graph} (h : g.WellNamed) {i j : Nat} {e e' : Scalar × Module}
    (hi : g.entries[i]? = some e) (hj : g.entries[j]? = some e') (hname : e.2.name = e'.2.name) :
    i = j := by
  have hlt : i < g.names.length := by
    simpa [Graph.names] using (List.getElem?_eq_some_iff.mp hi).1
  refine (List.getElem?_inj hlt h.nodup).mp ?_
  simp [Graph.names, hi, hj, hname]

theorem Renames.moduleKept {g g' : Graph} {old new : String} (h : g.Renames old new g')
    {place i : Nat} {key id : Scalar} {m n : Module} (hplace : g.entries[place]? = some (key, m))
    (hname : m.name = old) (hi : g.entries[i]? = some (id, n)) :
    ModuleKept g g' place new i n (n.renamed old new) where
  kind := rfl
  editing := rfl
  other hne := by
    have hn : n.name ≠ old := fun hn => hne (h.wellNamed.place_unique hi hplace (hn.trans hname.symm))
    simp [Module.renamed, renamedName, hn]
  renamed heq := by
    subst heq
    cases hi.symm.trans hplace
    simp [Module.renamed, renamedName, hname]
  inputs := by
    simp only [Module.renamed]
    rw [List.forall₂_map_right_iff, List.forall₂_same]
    exact fun input _ => h.inputKept input

/-- A rename that succeeds keeps all ids in order, of every module all but what has to change, and
the meaning of every input. The module is then found under the new name and none under the old
one, there still is a script if there was one, and readers stay readers unless an input had the
new name before. -/
theorem rename_keeps_meaning {g : Graph} (hg : g.Reachable) {id newName : Json} {key : Scalar}
    {m : Module} {code : String} {r : Renaming} (hm : g.lookup id = .ok (key, m))
    (hcode : m.code = .str code) (hr : (g.rename id newName).1 = .ok r) :
    ∃ new place, newName = .str new ∧ g.entries[place]? = some (key, m) ∧
      (g.rename id newName).2.ids = g.ids ∧
      (∀ i id' n, g.entries[i]? = some (id', n) → ∃ n',
        (g.rename id newName).2.entries[i]? = some (id', n') ∧
          ModuleKept g (g.rename id newName).2 place new i n n') ∧
      (g.rename id newName).2.find? newName = (g.rename id newName).2.entries[place]? ∧
      (new ≠ m.name → (g.rename id newName).2.find? (.str m.name) = none) ∧
      ((∃ text, g.script = .ok text) → ∃ text, (g.rename id newName).2.script = .ok text) ∧
      ((∀ e ∈ g.entries, ∀ input ∈ e.2.inputs, input ≠ .str new) →
        ∀ k, (g.rename id newName).2.dependents k = g.dependents k) := by
  have hwell := hg.wellNamed
  obtain ⟨before, after, hentries, -⟩ := lookup_eq_ok hm
  have hplace : g.entries[before.length]? = some (key, m) := by simp [hentries]
  have hmem : (key, m) ∈ g.entries := List.mem_of_getElem? hplace
  obtain ⟨f, hren⟩ | ⟨key', m', hm', hname, hren⟩ |
    ⟨key', m', new, hm', rfl, hvalid, hfree⟩ := rename_cases g id newName
  · simp [hren] at hr
  · cases hm.symm.trans hm'
    simp only [hren]
    refine ⟨m.name, before.length, hname, hplace, trivial, ?_, ?_, fun hne => absurd rfl hne,
      fun h => h, fun _ _ => trivial⟩
    · intro i id' n hi
      refine ⟨n, hi, rfl, rfl, fun _ => ⟨rfl, rfl⟩, ?_, ?_⟩
      · rintro rfl
        cases hi.symm.trans hplace
        rfl
      · exact List.forall₂_same.mpr fun input _ => .refl hwell m.name input
    · rw [hplace, hname]
      exact hwell.find?_eq_some_iff.mpr ⟨hmem, rfl⟩
  · cases hm.symm.trans hm'
    have h := renames_of_rename hwell hm hcode hvalid hfree
    rw [rename_of_free hm hcode hvalid hfree]
    -- From here on the new graph is known only by what a rename to a free name does to a graph.
    generalize (g.put key { m with
      name := new, code := .str (Handler.rename code m.name new) }).redirectAll m.name new = g' at h
    refine ⟨new, before.length, rfl, hplace, h.ids, ?_, ?_, fun _ => h.find?_old, ?_,
      h.dependents⟩
    · intro i id' n hi
      refine ⟨n.renamed m.name new, ?_, h.moduleKept hplace rfl hi⟩
      rw [h.entries, List.getElem?_map, hi]
      rfl
    · rw [h.find?_new hmem rfl, h.entries, List.getElem?_map, hplace]
      rfl
    · simp only [script_isOk_iff, h.entries]
      intro hscript e he
      obtain ⟨e₀, he₀, rfl⟩ := List.mem_map.mp he
      obtain ⟨hres, htext⟩ := hscript e₀ he₀
      refine ⟨?_, ?_⟩
      · intro input hinput
        obtain ⟨input₀, hinput₀, rfl⟩ := List.mem_map.mp hinput
        exact h.resolve?_isSome (hres input₀ hinput₀)
      · simp only [Module.renamed]
        split
        · exact ⟨_, rfl⟩
        · exact htext

/-- The map of the starter under another name: it is found there, it keeps its place, and the store
still depends on it. -/
theorem rename_keeps_meaning_starter :
    ∃ (new : String) (place : Nat), Json.str "baz" = .str new ∧
      starter.entries[place]?.map (·.1) = some (.int 1) ∧
      (starter.rename (.int 1) (.str "baz")).2.find? (.str "baz") =
        (starter.rename (.int 1) (.str "baz")).2.entries[place]? ∧
      ∀ k, (starter.rename (.int 1) (.str "baz")).2.dependents k = starter.dependents k := by
  have hlookup : starter.lookup (.int 1) = .ok (.int 1, {
      kind := .map, name := "foo", code := .str (Module.mapTemplate "foo")
      inputs := [.str blockName] }) := by rfl
  have hren : (starter.rename (.int 1) (.str "baz")).1 = .ok (.renamed "foo" "baz") := by rfl
  have h := rename_keeps_meaning reachable_starter hlookup rfl hren
  obtain ⟨new, place, hnew, hplace, -, -, hfind, -, -, hdep⟩ := h
  refine ⟨new, place, hnew, by rw [hplace]; rfl, hfind, hdep ?_⟩
  cases hnew
  intro e he input hinput
  simp only [starter, List.mem_cons, List.not_mem_nil, or_false] at he
  obtain rfl | rfl := he <;> simp_all [blockName]

end Graph

end BlockWorkbench
