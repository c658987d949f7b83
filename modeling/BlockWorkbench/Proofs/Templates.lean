import BlockWorkbench.Proofs.GraphRegistry
import BlockWorkbench.Proofs.Handler
import BlockWorkbench.Proofs.Renaming
import BlockWorkbench.Proofs.Script.Colliding

/-!
Graphs of new modules, whose code is what it was when they were made. A rename makes the code of a
new module that of a new module of the other name, and whether the script of such a graph compiles
and runs is told from the names alone.
-/

namespace BlockWorkbench

open Script (HandlerForm Identifier Draft Registry)

namespace Handler

variable {old : String} (new : String)

theorem renameFrom_indented (old new rest : List Char) :
    renameFrom old new true (' ' :: rest) = ' ' :: renameFrom old new false rest := by
  rw [renameFrom]
  simp [lead?, afterKeyword?]

theorem solid_of_identifier (h : Identifier old) : Solid old.toList := by
  obtain ⟨c, cs, hcs, hstart, -, -⟩ := h.exists_cons
  exact ⟨c, by simp [hcs],
    isGap_eq_false (p := (Text.isNameStart · = true)) (by decide) (by decide) hstart⟩

/-- The code of a new module is a definition and one indented line. -/
theorem exists_lines {f : HandlerForm} (hf : f.Sound) :
    ∃ first second, '\n' ∉ first ∧ '\n' ∉ second ∧ ∀ name, (f.text name).toList =
      "def ".toList ++ (name.toList ++ '(' :: (first ++ '\n' :: ' ' :: (second ++ ['\n']))) := by
  cases f with
  | map =>
      refine ⟨"BLOCK):".toList, "   return BLOCK[\"number\"]".toList, by decide, by decide, ?_⟩
      intro name
      simp [HandlerForm.text, Module.mapTemplate, blockName]
  | store source =>
      have hsource := Identifier.notMem (show Identifier source from hf) (c := '\n') (by decide)
      refine ⟨source.toList ++ ", s):".toList, "   s.set(".toList ++ (source.toList ++ [')']),
        by simp [hsource], by simp [hsource], ?_⟩
      intro name
      simp [HandlerForm.text, Module.storeTemplate]

/-- A rename makes the code of a new module that of a new module of the other name. -/
theorem rename_text {f : HandlerForm} (hf : f.Sound) (h : Identifier old) :
    rename (f.text old) old new = f.text new := by
  obtain ⟨first, second, hfirst, hsecond, htext⟩ := exists_lines hf
  have hsolid := solid_of_identifier h
  have hfeed : '\n' ∉ old.toList := h.notMem (by decide)
  have hdefines : Defines old.toList ("def ".toList ++ (old.toList ++ '(' :: first)) "def ".toList
      ('(' :: first) :=
    ⟨rfl, ⟨"def".toList, [' '], .inl rfl, by simp [IsGaps, isGap], rfl⟩, by simp [opens, isGap]⟩
  have hline : '\n' ∉ "def ".toList ++ (old.toList ++ '(' :: first) := by simp [hfeed, hfirst]
  have hsplit : ∀ rest, "def ".toList ++ (old.toList ++ '(' :: (first ++ '\n' :: rest)) =
      "def ".toList ++ (old.toList ++ '(' :: first) ++ '\n' :: rest := by simp
  rw [← String.toList_inj, rename, String.toList_ofList, htext, htext, hsplit,
    renameFrom_wholeLine hsolid hfeed hline (.inr ⟨_, rfl⟩), hdefines.renameLine hsolid,
    renameFrom_feed, renameFrom_indented, renameFrom_inside hsecond, renameFrom_feed, renameFrom]
  simp

end Handler

namespace Module

/-- Whether the code of a module is what new modules of its name start with. -/
def IsTemplate (m : Module) : Prop :=
  ∃ f : HandlerForm, f.Sound ∧ m.code = .str (f.text m.name)

/-- Whether the code of a module compiles by itself. -/
def Compiles (m : Module) : Prop := ∃ program, Script.compile m.codeText = .ok program

theorem IsTemplate.renamed {m : Module} (h : m.IsTemplate) {old : String} (hold : Identifier old)
    (new : String) : (m.renamed old new).IsTemplate := by
  obtain ⟨f, hf, hcode⟩ := h
  refine ⟨f, hf, ?_⟩
  by_cases hname : m.name = old
  · subst hname
    simp only [Module.renamed, renamedName, if_pos, codeText, hcode,
      Handler.rename_text new hf hold]
  · simp only [Module.renamed, renamedName, if_neg hname, hcode]

end Module

namespace Graph

/-- The graphs that are made of new maps and stores, the stores with such sources, by removing
modules and setting inputs. -/
inductive OfTemplates (fits : Json → Prop) : Graph → Prop
  | empty : OfTemplates fits {}
  | newMap {g : Graph} (name : Json) : OfTemplates fits g →
      OfTemplates fits (g.perform (.newMap name)).2
  | newStore {g : Graph} (name source : Json) : fits source → OfTemplates fits g →
      OfTemplates fits (g.perform (.newStore name source)).2
  | remove {g : Graph} (id : Json) : OfTemplates fits g →
      OfTemplates fits (g.perform (.remove id)).2
  | setInputs {g : Graph} (id inputs : Json) : OfTemplates fits g →
      OfTemplates fits (g.perform (.setInputs id inputs)).2

variable {g : Graph}

theorem OfTemplates.reachable {fits : Json → Prop} (h : g.OfTemplates fits) : g.Reachable := by
  induction h with
  | empty => exact .empty
  | newMap name _ ih => exact .perform _ ih
  | newStore name source _ _ ih => exact .perform _ ih
  | remove id _ ih => exact .perform _ ih
  | setInputs id inputs _ ih => exact .perform _ ih

theorem forall_put {P : Module → Prop} (h : ∀ e ∈ g.entries, P e.2) (id : Scalar) {m : Module}
    (hm : P m) : ∀ e ∈ (g.put id m).entries, P e.2 := by
  obtain ⟨before, k, v, after, hg, hk, hbefore⟩ | hnone := Json.find?_same_cases g.entries id
  · rw [Graph.put, hg, Json.setEntry_append hbefore hk]
    rw [hg] at h
    simp only [List.forall_mem_append, List.forall_mem_cons] at h ⊢
    exact ⟨h.1, hm, h.2.2⟩
  · rw [Graph.put, Json.setEntry_of_forall hnone]
    simp only [List.forall_mem_append, List.forall_mem_singleton]
    exact ⟨h, hm⟩

theorem forall_changed {P : Module → Prop} (h : ∀ e ∈ g.entries, P e.2)
    {r : Except Fault (Answer × Graph)} (hr : ∀ p, r = .ok p → ∀ e ∈ p.2.entries, P e.2) :
    ∀ e ∈ (g.changed r).2.entries, P e.2 := by
  cases r with
  | error f => exact h
  | ok p => exact hr p rfl

theorem forall_insert {P : Module → Prop} (h : ∀ e ∈ g.entries, P e.2) {m : Module} (hm : P m)
    {r : Scalar × Graph} (hr : g.insert m = .ok r) : ∀ e ∈ r.2.entries, P e.2 := by
  obtain ⟨-, rfl⟩ := insert_eq_ok hr
  exact forall_put h (idOf g.next) hm

theorem mem_of_remove {id : Json} {r : Module × Graph} (hr : g.remove id = .ok r)
    {e : Scalar × Module} (he : e ∈ r.2.entries) : e ∈ g.entries := by
  obtain ⟨key, hg⟩ := remove_eq_ok hr
  rw [hg] at he
  exact List.mem_of_mem_filter he

/-- Where the sources are identifiers, all code is that of new modules. -/
theorem OfTemplates.isTemplate (h : g.OfTemplates fun source => Identifier source.plain) :
    ∀ e ∈ g.entries, e.2.IsTemplate := by
  induction h with
  | empty => simp
  | newMap name _ ih =>
      refine forall_changed ih fun p hp => ?_
      obtain ⟨m, hm, hp⟩ := bind_eq_ok.mp hp
      obtain ⟨r, hr, hp⟩ := bind_eq_ok.mp hp
      obtain ⟨n, -, hm⟩ := bind_eq_ok.mp hm
      cases hp
      cases hm
      exact forall_insert ih ⟨.map, trivial, rfl⟩ hr
  | newStore name source hsource _ ih =>
      refine forall_changed ih fun p hp => ?_
      obtain ⟨m, hm, hp⟩ := bind_eq_ok.mp hp
      obtain ⟨r, hr, hp⟩ := bind_eq_ok.mp hp
      obtain ⟨n, -, hm⟩ := bind_eq_ok.mp hm
      cases hp
      cases hm
      exact forall_insert ih ⟨.store source.plain, hsource, rfl⟩ hr
  | remove id _ ih =>
      refine forall_changed ih fun p hp => ?_
      obtain ⟨r, hr, hp⟩ := bind_eq_ok.mp hp
      cases hp
      exact fun e he => ih e (mem_of_remove hr he)
  | setInputs id inputs _ ih =>
      refine forall_changed ih fun p hp => ?_
      obtain ⟨g', hg', hp⟩ := bind_eq_ok.mp hp
      cases hp
      obtain ⟨items, -, hg'⟩ := bind_eq_ok.mp hg'
      obtain ⟨e, he, hg'⟩ := bind_eq_ok.mp hg'
      cases hg'
      obtain ⟨before, after, hentries, -⟩ := lookup_eq_ok he
      obtain ⟨f, hf, hcode⟩ := ih e (by simp [hentries])
      exact forall_put ih e.1 ⟨f, hf, hcode⟩

/-- Whether no module has the name of the function that registers a module behind it. -/
def Clear (g : Graph) : Prop :=
  (g.entries.map (·.2)).Pairwise fun a b => a.name ≠ b.kind.registerFunction

/-- A module as it stands in the script of its graph, if its code is made of statements. -/
def draft (hg : g.WellNamed) {m : Module} (hmem : m.name ∈ g.names) {code : String}
    {program : Script.Program} (hplain : '\x00' ∉ code.toList)
    (hparses : Script.parseProgram code = .ok program) : Draft where
  module := m
  sources := g.sources m.inputs
  code := code
  program := program
  named := (hg.valid m.name hmem).ne_empty
  sourcesNamed := named_sources hg
  plain := hplain
  parses := hparses

theorem draft_text (hg : g.WellNamed) {m : Module} (hmem : m.name ∈ g.names) {code : String}
    {program : Script.Program} (hplain : '\x00' ∉ code.toList)
    (hparses : Script.parseProgram code = .ok program) (hcode : m.code = .str code) :
    (draft hg hmem hplain hparses).text = g.part m := by
  simp [draft, Draft.text, part, Module.codeText, hcode]

theorem exists_drafts (hg : g.WellNamed) (ms : List Module) (hmem : ∀ m ∈ ms, m.name ∈ g.names)
    (hnames : ∀ m ∈ ms, Identifier m.name) (hcode : ∀ m ∈ ms, m.IsTemplate) :
    ∃ drafts : List Draft, drafts.map Draft.text = ms.map g.part ∧
      drafts.map (·.module) = ms ∧
      drafts.map (fun p => Script.registered p.module p.sources) = ms.map g.registered ∧
      (∀ p ∈ drafts, p.Handles) ∧
      ((∀ p ∈ drafts, Script.arePlaced false false p.program = true) ↔ ∀ m ∈ ms, m.Compiles) := by
  induction ms with
  | nil => exact ⟨[], rfl, rfl, rfl, by simp, by simp⟩
  | cons m rest ih =>
      obtain ⟨drafts, htexts, hmodules, hregistered, hhandles, hcompiles⟩ :=
        ih (fun m' h => hmem m' (List.mem_cons_of_mem m h))
          (fun m' h => hnames m' (List.mem_cons_of_mem m h))
          fun m' h => hcode m' (List.mem_cons_of_mem m h)
      obtain ⟨f, hf, hstr⟩ := hcode m List.mem_cons_self
      have hname := hnames m List.mem_cons_self
      let p := draft hg (hmem m List.mem_cons_self)
        (HandlerForm.notMem_text hf hname (by decide) (by decide))
        (HandlerForm.parseProgram_text hf hname)
      have htext : p.text = g.part m := draft_text _ _ _ _ hstr
      have hplaced : Script.arePlaced false false p.program = true ↔ m.Compiles := by
        rw [Module.Compiles, Module.codeText, hstr]
        exact HandlerForm.arePlaced_definition.trans (HandlerForm.compile_text hf hname).symm
      refine ⟨p :: drafts, by rw [List.map_cons, List.map_cons, htext, htexts],
        by rw [List.map_cons, hmodules]; rfl,
        by rw [List.map_cons, List.map_cons, hregistered]; rfl,
        List.forall_mem_cons.mpr ⟨⟨f, rfl⟩, hhandles⟩, ?_⟩
      rw [List.forall_mem_cons, List.forall_mem_cons, hplaced, hcompiles]

/-- The script of a graph of new modules compiles exactly if the code of every module does. It runs
at the start exactly if no module has the name of a function that registers one behind it, and then
leaves the registry of the graph and the handlers of its modules. -/
theorem script_templates (hg : g.WellNamed) (hresolves : ∀ e ∈ g.entries, g.Resolves e.2)
    (hnames : ∀ n ∈ g.names, Identifier n) (hcode : ∀ e ∈ g.entries, e.2.IsTemplate) (fuel : Nat) :
    ∃ text unit, g.script = .ok text ∧
      (∀ program, Script.compile text = .ok program ↔
        program = unit ∧ ∀ e ∈ g.entries, e.2.Compiles) ∧
      (g.Clear → ∃ m, Script.evalProgram (fuel + 7) unit {} = (.value .none, m) ∧
        m.HasHandlers g.names ∧ m.registry = g.registry) ∧
      (¬ g.Clear → ∃ r m, Script.evalProgram (fuel + 7) unit {} = (.raised r, m)) := by
  obtain ⟨drafts, htexts, hmodules, hregistered, hhandles, hcompiles⟩ :=
    exists_drafts hg (g.entries.map (·.2)) (List.forall_mem_map.mpr fun _ => List.mem_map_of_mem)
      (List.forall_mem_map.mpr fun _ he => hnames _ (List.mem_map_of_mem he))
      (List.forall_mem_map.mpr hcode)
  have htext : g.script = .ok (String.join (drafts.map Draft.text)) := by
    rw [htexts, List.map_map]
    refine script_eq_ok fun e he => ⟨hresolves e he, ?_⟩
    obtain ⟨f, -, hstr⟩ := hcode e he
    exact ⟨_, hstr⟩
  have hclear : g.Clear ↔ Script.Clear [] (drafts.map (·.module)) := by
    rw [Script.clear_iff, hmodules]
    simp [Clear]
  refine ⟨_, drafts.flatMap Draft.unit, htext, fun program => ?_, fun h => ?_, fun h => ?_⟩
  · rw [Script.compile_drafts, hcompiles, List.forall_mem_map]
  · obtain ⟨m, hrun, hhandlers, hregistry⟩ := Script.evalProgram_clear fuel hhandles (hclear.mp h)
    refine ⟨m, hrun, ?_, ?_⟩
    · have hnames : drafts.map (·.module.name) = g.names := by
        have hmap := congrArg (List.map Module.name) hmodules
        rwa [List.map_map, List.map_map] at hmap
      rwa [← hnames]
    · rw [hregistry, hregistered]
      exact Registry.foldl_put_append (r := []) (nodup_registry hg)
  · exact Script.evalProgram_raises fuel hhandles fun h' => h (hclear.mpr h')

end Graph

end BlockWorkbench
