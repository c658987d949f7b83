import BlockWorkbench.Proofs.Reachable
import BlockWorkbench.Proofs.Script.Handlers
import BlockWorkbench.Script.Engine

/-!
The code of new modules as scripts. It defines the handler if its names may stand together: they
are pasted as they are, so none of them may be that of the constant, and the source of a store may
not be called like the parameter that the store itself is.
-/

namespace BlockWorkbench.Module

open Script (Identifier HandlerForm Program compile compileSource constantName)

theorem compileSource_str_iff {text : String} {program : Program} :
    compileSource (.str text) = .ok program ↔ compile text = .ok program := by
  simp only [compileSource]
  cases compile text <;> simp

/-- Whether code is a script that defines one function, with `count` different parameters that
have no defaults, and does nothing else. -/
def DefinesHandler (code : Json) (name : String) (count : Nat) : Prop :=
  ∃ (params : List String) (body : List Script.Stmt),
    compileSource code = .ok [.define name (params.map (⟨·, none⟩)) body] ∧
      params.Nodup ∧ params.length = count

section Forms

variable {f : HandlerForm} {name : String}

theorem nodup_params (h : f.Placeable) : f.params.Nodup := by
  cases f with
  | map => simp [HandlerForm.params]
  | store source => simpa [HandlerForm.params] using h.1

theorem compileSource_text_iff (hf : f.Sound) (hname : Identifier name) {program : Program} :
    compileSource (.str (f.text name)) = .ok program ↔
      program = [f.definition name] ∧ name ≠ constantName ∧ f.Placeable :=
  compileSource_str_iff.trans (HandlerForm.compile_text_eq_ok hf hname)

theorem definesHandler_iff (hf : f.Sound) (hname : Identifier name) :
    DefinesHandler (.str (f.text name)) name f.params.length ↔
      name ≠ constantName ∧ f.Placeable := by
  constructor
  · rintro ⟨params, body, hcompiles, -, -⟩
    exact ((compileSource_text_iff hf hname).mp hcompiles).2
  · intro h
    exact ⟨f.params, f.body, (compileSource_text_iff hf hname).mpr ⟨rfl, h⟩, nodup_params h.2, rfl⟩

end Forms

/-- Where names are identifiers, the code of a new map defines its handler with one parameter and
that of a new store with two, unless a name is that of the constant or the source of the store is
called `s`. -/
theorem new_module_defines_iff {name source : String} (hvalid : checkName (.str name) = .ok name)
    (hname : Identifier name) (hsource : Identifier source) :
    (∃ m, newMap (.str name) = .ok m ∧ (DefinesHandler m.code name 1 ↔ name ≠ constantName)) ∧
    ∃ m, newStore (.str name) (.str source) = .ok m ∧
      (DefinesHandler m.code name 2 ↔
        name ≠ constantName ∧ source ≠ constantName ∧ source ≠ "s") := by
  have hmap : DefinesHandler (.str (mapTemplate name)) name 1 ↔ _ :=
    definesHandler_iff (f := .map) trivial hname
  have hstore : DefinesHandler (.str (storeTemplate name source)) name 2 ↔ _ :=
    definesHandler_iff (f := .store source) hsource hname
  refine ⟨⟨_, by rw [newMap, hvalid]; rfl, hmap.trans ?_⟩,
    ⟨_, by rw [newStore, hvalid]; rfl, hstore.trans ?_⟩⟩
  · simp [HandlerForm.Placeable]
  · simp [HandlerForm.Placeable, and_comm]

/-- A store that reads the block and is called like a parameter. -/
theorem new_module_defines_iff_block :
    checkName (.str "s") = .ok "s" ∧ Identifier "s" ∧ Identifier blockName ∧
      (∃ m, newMap (.str "s") = .ok m ∧ DefinesHandler m.code "s" 1) ∧
      ∃ m, newStore (.str "s") (.str blockName) = .ok m ∧ DefinesHandler m.code "s" 2 := by
  have hvalid : checkName (.str "s") = .ok "s" := checkName_eq_ok.mpr ⟨rfl, by decide⟩
  have hname : Identifier "s" := by decide
  have hsource : Identifier blockName := by decide
  obtain ⟨⟨m, hm, hmap⟩, m', hm', hstore⟩ := new_module_defines_iff hvalid hname hsource
  exact ⟨hvalid, hname, hsource, ⟨m, hm, hmap.mpr (by decide)⟩, m', hm', hstore.mpr (by decide)⟩

/-- A store that is fed by a module called `s` has code that does not compile. -/
theorem store_of_s_does_not_compile :
    checkName (.str "keep") = .ok "keep" ∧ checkName (.str "s") = .ok "s" ∧
      Identifier "keep" ∧ Identifier "s" ∧
      ∃ m, newStore (.str "keep") (.str "s") = .ok m ∧
        m.code = .str "def keep(s, s):\n    s.set(s)\n" ∧
        ∀ program, compileSource m.code ≠ .ok program := by
  have hvalid : checkName (.str "keep") = .ok "keep" := checkName_eq_ok.mpr ⟨rfl, by decide⟩
  have hname : Identifier "keep" := by decide
  have hsource : Identifier "s" := by decide
  refine ⟨hvalid, checkName_eq_ok.mpr ⟨rfl, by decide⟩, hname, hsource, _,
    by rw [newStore, hvalid]; rfl, rfl, fun program h => ?_⟩
  obtain ⟨-, -, hplaceable⟩ := (compileSource_text_iff (f := .store "s") hsource hname).mp h
  exact hplaceable.1 rfl

end BlockWorkbench.Module
