import BlockWorkbench.Proofs.GraphRegistry
import BlockWorkbench.Proofs.Worker.Reading

/-!
What the statement that registers a module does to the names in it. It always compiles and
registers the one module, and every name comes through as it is shown. A name is registered code
point for code point exactly if all its characters are of the basic plane: JSON escapes one beyond
it as two halves, and a literal of a script does not join them.
-/

namespace BlockWorkbench

namespace Script

/-- A string all of whose characters are of the basic plane. -/
def Basic (s : String) : Prop := ∀ c ∈ s.toList, c.toNat < 0x10000

/-- The halves of a character beyond the basic plane are not the character. -/
theorem filterMap_charUnits_ne {c : Char} (hc : ¬ c.toNat < 0x10000) (more rest : Points) :
    (Json.charUnits true c).filterMap numbered? ++ more ≠ .ofChar c :: rest := by
  have hlt := Json.toNat_lt c
  have hunits : Json.charUnits true c = [0xd800 + (c.toNat - 0x10000) / 0x400,
      0xdc00 + (c.toNat - 0x10000) % 0x400] := if_pos ⟨rfl, by omega⟩
  have hhigh := numbered?_of_lt (n := 0xd800 + (c.toNat - 0x10000) / 0x400) (by omega)
  rw [hunits, List.filterMap_cons_some hhigh, List.cons_append]
  intro h
  have hhead : 0xd800 + (c.toNat - 0x10000) / 0x400 = c.toNat :=
    congrArg Fin.val (List.cons.inj h).1
  omega

/-- What a script reads in the JSON text of a string is that string exactly if no character of it
is beyond the basic plane. -/
theorem written_eq_ofString_iff {s : String} : written s = .ofString s ↔ Basic s := by
  simp only [written, Points.ofString, Basic]
  induction s.toList with
  | nil => simp
  | cons c rest ih =>
      rw [List.flatMap_cons, List.filterMap_append, List.map_cons, List.forall_mem_cons, ← ih]
      constructor
      · intro h
        by_cases hc : c.toNat < 0x10000
        · rw [filterMap_charUnits_eq hc] at h
          exact ⟨hc, (List.cons.inj h).2⟩
        · exact absurd h (filterMap_charUnits_ne hc _ _)
      · rintro ⟨hc, h⟩
        rw [filterMap_charUnits_eq hc, h]
        rfl

/-- A text of one line at the left edge is the program that its tokens make up. -/
theorem compile_line {text : String} {placed : List Placed} {program : Program}
    (hprintable : Printable text.toList)
    (hline : WholeLines (closeLastLine text.toList) [⟨0, 0, placed⟩])
    (hparse : parseAll (16 * (placed.length + 1) + 16) (2 * (placed.length + 1) + 2)
      (placed.map (·.token) ++ [.newline]) = .ok program)
    (hplaced : arePlaced false false program = true) : compile text = .ok program := by
  have hreturn : '\r' ∉ text.toList := fun h => by simpa using hprintable '\r' h
  have hnull : '\x00' ∉ text.toList := fun h => by simpa using hprintable '\x00' h
  have hlayout : layout [(0, 0)] [⟨0, 0, placed⟩] = placed.map (·.token) ++ [.newline] := by
    rw [layout_cons rfl, layout_nil]
    simp
  have hparses : Parses text.toList [⟨0, 0, placed⟩] program := by
    refine ⟨by rwa [plainLineEnds_eq_self hreturn], ?_⟩
    rw [hlayout]
    simpa using hparse
  exact compile_eq_ok.mpr
    ⟨by simpa using hnull, parseProgram_eq_ok.mpr ⟨_, hparses⟩, hplaced⟩

/-- The registration of a module is a script of one statement. -/
theorem compile_registrationText {m : Module} {sources : List InputSource} (hname : m.name ≠ "")
    (hsources : ∀ source ∈ sources, Named source) :
    compile (Graph.registrationText m sources) = .ok [.expr (registrationCall m sources)] := by
  obtain ⟨placed, htokens, hline⟩ := wholeLines_registrationText hname hsources
  have hlength : placed.length = (registrationTokens m sources).length := by
    rw [← htokens, List.length_map]
  have henough := length_registrationTokens m sources
  refine compile_line (printable_registrationText m sources) hline.closeLastLine ?_ rfl
  rw [htokens, hlength]
  exact parseAll_registration (by omega) rfl

/-- The JSON text of a string is one line with one token. -/
theorem wholeLines_stringText {s : String} (hs : s ≠ "") :
    ∃ placed : List Placed, placed.map (·.token) = [.str (written s)] ∧
      WholeLines (closeLastLine (Json.stringText s).toList) [⟨0, 0, placed⟩] := by
  let start : Scanner := { mode := .between, row := 0 }
  have hamid : start.Amid [] [] := ⟨rfl, rfl, rfl, rfl, rfl, rfl⟩
  obtain ⟨hrest, placed, hplaced, hlines⟩ := (hamid.behind.string hs).endLine (by simp)
  have hclose : closeLastLine (Json.stringText s).toList = Json.writeString true s ++ ['\n'] := by
    have hlast : (Json.writeString true s).getLast? = some '"' := by
      rw [Json.writeString, List.getLast?_concat]
    have hne : Json.writeString true s ≠ [] := by simp [Json.writeString]
    simp [closeLastLine, Json.stringText, hlast, hne]
  have hscan : (Json.writeString true s ++ ['\n']).foldl Scanner.step { row := 0 } =
      ((Json.writeString true s).foldl Scanner.step start).step '\n' := by
    rw [List.foldl_append]
    rfl
  refine ⟨placed, hplaced, ?_⟩
  rw [hclose]
  exact ⟨by rwa [hscan], by rw [hscan, hlines, List.reverse_singleton]⟩

/-- The JSON text of a string is a script of one literal. -/
theorem compile_stringText {s : String} (hs : s ≠ "") :
    compile (Json.stringText s) = .ok [.expr (.str (written s))] := by
  obtain ⟨placed, htokens, hline⟩ := wholeLines_stringText hs
  have hlength : placed.length = 1 := by
    rw [← List.length_map (f := (·.token)), htokens, List.length_singleton]
  refine compile_line (by simp [Json.stringText]) hline ?_ rfl
  rw [htokens, hlength]
  rfl

/-- An input as it is declared: the block, or a module by its kind and name. -/
def declaredInput (source : InputSource) : RegisteredInput :=
  match source with
  | .block => ⟨.source, .none, [(.str "kind", .str "source")]⟩
  | .module kind name =>
    ⟨.module (if kind = "map" then .map else .store), .str name,
      [(.str "kind", .str kind), (.str "name", .str name)]⟩

/-- A module as it is declared. -/
def declared (m : Module) (sources : List InputSource) : Registration :=
  ⟨registeredKind m.kind, m.name, m.name, sources.map declaredInput⟩

/-- A source with a name of the basic plane, if it has one. -/
def BasicSource : InputSource → Prop
  | .block => True
  | .module _ name => Basic name

theorem registeredInput_eq_iff {source : InputSource} (h : Named source) :
    registeredInput source = declaredInput source ↔ BasicSource source := by
  cases source with
  | block => exact ⟨fun _ => trivial, fun _ => rfl⟩
  | module kind name =>
      have hkind : written kind = .ofString kind := by
        obtain ⟨rfl | rfl, -⟩ := h <;> rfl
      constructor
      · intro h
        injection h with _ hname _
        injection hname with hname
        exact written_eq_ofString_iff.mp hname
      · intro hname
        simp only [registeredInput, inputEntries, declaredInput, hkind,
          written_eq_ofString_iff.mpr hname]
        rfl

/-- A module is registered as it is declared exactly if its name and the names that it reads are of
the basic plane. -/
theorem registered_eq_declared_iff {m : Module} {sources : List InputSource}
    (hsources : ∀ source ∈ sources, Named source) :
    registered m sources = declared m sources ↔
      Basic m.name ∧ ∀ source ∈ sources, BasicSource source := by
  have hinputs : sources.map registeredInput = sources.map declaredInput ↔
      ∀ source ∈ sources, BasicSource source := by
    rw [List.map_inj_left]
    exact forall₂_congr fun source h => registeredInput_eq_iff (hsources source h)
  rw [← hinputs, ← written_eq_ofString_iff]
  constructor
  · intro h
    injection h with _ hname _ hinputs
    exact ⟨hname, hinputs⟩
  · rintro ⟨hname, hinputs⟩
    simp only [registered, declared, hname, hinputs]

/-- A fresh engine runs a registration: it registers the one module. -/
theorem evalSource_registrationText {m : Module} {sources : List InputSource} (hname : m.name ≠ "")
    (hsources : ∀ source ∈ sources, Named source) (fuel : Nat) :
    ∃ machine, ({} : Machine).evalSource (fuel + 7) (.str (Graph.registrationText m sources)) =
      (.ok .none, machine) ∧ machine.registry = [registered m sources] := by
  have hunit : Registers [.expr (registrationCall m sources)] [registered m sources] :=
    .call hname hsources .nil
  obtain ⟨machine, hrun, -, hregistry⟩ := hunit.evalProgram fuel (m := {}) .start
  refine ⟨machine, ?_, hregistry⟩
  simp only [Machine.evalSource, compileSource_str (compile_registrationText hname hsources),
    Machine.evalUnit_eq_settle, hrun]
  rfl

end Script

namespace Graph

open Script (Machine Basic BasicSource declared registeredKind written_eq_ofString_iff)

variable {g : Graph}

theorem registration_eq_ok {m : Module} (h : g.Resolves m) :
    g.registration m = .ok (registrationText m (g.sources m.inputs)) := by
  simp [registration, resolveAll_eq_ok h]

theorem basicSource_sources {inputs : List Json} :
    (∀ source ∈ g.sources inputs, BasicSource source) ↔
      ∀ input ∈ inputs, ∀ e, g.find? input = some e → Basic e.2.name := by
  constructor
  · intro hbasic input hinput e he
    exact hbasic _ (List.mem_filterMap.mpr ⟨input, hinput, resolve?_of_find? he⟩)
  · intro hbasic source hsource
    obtain ⟨input, hinput, hresolve⟩ := List.mem_filterMap.mp hsource
    obtain ⟨rfl, -⟩ | ⟨e, hfind, rfl⟩ := resolve?_eq_some hresolve
    · trivial
    · exact hbasic input hinput e hfind

/-- The registration of a module of a graph, run by a fresh engine, registers that module and
nothing else, under a name that is shown as its own, with that name for its handler. It is
registered as it is declared exactly if its name and the names of the modules that it reads have no
character beyond the basic plane. The JSON text of any name, read as a script, is one literal; it
is the name itself under the same condition. -/
theorem registration_declares_iff (hg : g.Reachable) {m : Module}
    (hm : m ∈ g.entries.map (·.2)) (hresolves : g.Resolves m) {fuel : Nat} (hfuel : 7 ≤ fuel) :
    (∃ text machine r, g.registration m = .ok text ∧
      ({} : Machine).evalSource fuel (.str text) = (.ok .none, machine) ∧ machine.registry = [r] ∧
      r.kind = registeredKind m.kind ∧ r.handler = r.name ∧ r.name.toString = m.name ∧
      (r.name = m.name ↔ Basic m.name) ∧
      (r = declared m (g.sources m.inputs) ↔ Basic m.name ∧
        ∀ input ∈ m.inputs, ∀ e, g.find? input = some e → Basic e.2.name)) ∧
    ∀ name : String, name ≠ "" → ∃ literal, Script.compile (Json.stringText name) =
      .ok [.expr (.str literal)] ∧ (literal = name ↔ Basic name) := by
  obtain ⟨fuel, rfl⟩ := Nat.exists_eq_add_of_le' hfuel
  have hname : m.name ≠ "" := by
    obtain ⟨e, he, rfl⟩ := List.mem_map.mp hm
    exact (hg.wellNamed.valid _ (List.mem_map_of_mem he)).ne_empty
  have hsources : ∀ source ∈ g.sources m.inputs, Script.Named source := named_sources hg.wellNamed
  obtain ⟨machine, hrun, hregistry⟩ := Script.evalSource_registrationText hname hsources fuel
  refine ⟨⟨_, machine, _, registration_eq_ok hresolves, hrun, hregistry, rfl, rfl,
    Script.toString_written m.name, written_eq_ofString_iff, ?_⟩, fun name hne =>
      ⟨_, Script.compile_stringText hne, written_eq_ofString_iff⟩⟩
  rw [Script.registered_eq_declared_iff hsources, basicSource_sources]

/-- The store of the starter, which reads its map. -/
theorem registration_declares_iff_starter : ∃ e ∈ starter.entries,
    starter.Reachable ∧ starter.Resolves e.2 ∧ 7 ≤ 1000 ∧ ∃ text machine,
      starter.registration e.2 = .ok text ∧
      ({} : Machine).evalSource 1000 (.str text) = (.ok .none, machine) ∧
      machine.registry = [declared e.2 [.module "map" "foo"]] := by
  obtain ⟨e, he, hname, hinputs⟩ : ∃ e ∈ starter.entries, e.2.name = "test_store" ∧
      e.2.inputs = [.str "foo"] := ⟨_, .tail _ (.head _), rfl, rfl⟩
  obtain ⟨map, hfind, hmap⟩ : ∃ map, starter.find? (.str "foo") = some map ∧
      map.2.name = "foo" := ⟨_, rfl, rfl⟩
  have hresolves : starter.Resolves e.2 := by
    rw [Resolves, hinputs, List.forall_mem_singleton, resolve?_of_find? hfind]
    exact Option.isSome_some
  obtain ⟨⟨text, machine, r, htext, hrun, hregistry, -, -, -, -, hdeclared⟩, -⟩ :=
    registration_declares_iff reachable_starter (List.mem_map_of_mem he) hresolves
      (show 7 ≤ 1000 by decide)
  have hr : r = declared e.2 (starter.sources e.2.inputs) := by
    refine hdeclared.mpr ⟨by simp [hname, Basic], ?_⟩
    rw [hinputs, List.forall_mem_singleton, hfind]
    rintro _ ⟨⟩
    simp [hmap, Basic]
  refine ⟨e, he, reachable_starter, hresolves, by decide, text, machine, htext, hrun, ?_⟩
  rw [hregistry, hr, hinputs]
  rfl

/-- A map that reads nothing, under a name of one character beyond the basic plane. -/
def beyond : Module := { kind := .map, name := "😀" }

/-- A graph of that map alone. -/
def beyondGraph : Graph := { entries := [(.int 1, beyond)], next := .int 2 }

theorem reachable_beyond : beyondGraph.Reachable := by
  have h : beyondGraph = (({} : Graph).perform (.insert beyond.definition)).2 := by rfl
  rw [h]
  exact .perform _ .empty

/-- A map is registered under the two halves of its name, which are not its name. -/
theorem registered_under_halves : beyondGraph.Reachable ∧ beyondGraph.Resolves beyond ∧
    ∃ text machine r, beyondGraph.registration beyond = .ok text ∧
      ({} : Machine).evalSource 1000 (.str text) = (.ok .none, machine) ∧ machine.registry = [r] ∧
      r.name = [0xd83d, 0xde00] ∧ Points.ofString beyond.name = [0x1f600] := by
  have hresolves : beyondGraph.Resolves beyond := by simp [Resolves, beyond]
  have hsources : ∀ source ∈ beyondGraph.sources beyond.inputs, Script.Named source :=
    named_sources reachable_beyond.wellNamed
  obtain ⟨machine, hrun, hregistry⟩ := Script.evalSource_registrationText (m := beyond)
    (by decide) hsources 993
  exact ⟨reachable_beyond, hresolves, _, machine, _, registration_eq_ok hresolves, hrun, hregistry,
    by decide, by decide⟩

end Graph

end BlockWorkbench
