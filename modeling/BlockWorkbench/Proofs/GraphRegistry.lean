import BlockWorkbench.Proofs.Generation
import BlockWorkbench.Proofs.Manifest
import BlockWorkbench.Proofs.Script.Parts
import BlockWorkbench.Proofs.Script.Registering

/-!
The registry that the script of a graph makes. It holds each module of the graph as it is declared,
so it has a manifest unless a module reads itself, and the manifest lists the modules of the graph.
-/

namespace BlockWorkbench

namespace Script.Registry

variable {r : Registry}

theorem put_of_forall {m : Registration} (h : ∀ n ∈ r, n.name ≠ m.name) : r.put m = r ++ [m] := by
  induction r with
  | nil => rfl
  | cons n rest ih =>
      have hrest := ih fun n' hn' => h n' (List.mem_cons_of_mem n hn')
      rw [put, if_neg (h n List.mem_cons_self), hrest, List.cons_append]

/-- To register what is registered changes nothing. -/
theorem put_of_mem (hr : (r.map (·.name)).Nodup) {m : Registration} (hm : m ∈ r) : r.put m = r := by
  induction r with
  | nil => cases hm
  | cons n rest ih =>
      rw [List.map_cons, List.nodup_cons] at hr
      obtain rfl | hrest := List.mem_cons.mp hm
      · rw [put, if_pos rfl]
      · have hname : n.name ≠ m.name := fun h =>
          hr.1 (h ▸ List.mem_map_of_mem (f := Registration.name) hrest)
        rw [put, if_neg hname, ih hr.2 hrest]

/-- Registrations of different names stand behind what was registered, in order. -/
theorem foldl_put_append {rs : List Registration} (h : ((r ++ rs).map (·.name)).Nodup) :
    rs.foldl put r = r ++ rs := by
  induction rs generalizing r with
  | nil => simp
  | cons m rest ih =>
      have hput : r.put m = r ++ [m] := by
        refine put_of_forall fun n hn hname => ?_
        rw [List.map_append, List.nodup_append] at h
        exact h.2.2 _ (List.mem_map_of_mem hn) _ (by simp) hname
      rw [List.foldl_cons, hput, ih (by simpa using h)]
      simp

theorem foldl_put_of_subset (hr : (r.map (·.name)).Nodup) {rs : List Registration}
    (h : ∀ m ∈ rs, m ∈ r) : rs.foldl put r = r := by
  induction rs with
  | nil => rfl
  | cons m rest ih =>
      rw [List.foldl_cons, put_of_mem hr (h m List.mem_cons_self)]
      exact ih fun m' hm' => h m' (List.mem_cons_of_mem m hm')

/-- To register the same any number of times is to register it once. -/
theorem foldl_put_replicate {rs : List Registration} (hrs : (rs.map (·.name)).Nodup) (k : Nat) :
    (List.replicate (k + 1) rs).flatten.foldl put [] = rs := by
  have hmore : ∀ m ∈ (List.replicate k rs).flatten, m ∈ rs := by
    intro m hm
    obtain ⟨l, hl, hm⟩ := List.mem_flatten.mp hm
    exact List.eq_of_mem_replicate hl ▸ hm
  have hfirst : rs.foldl put [] = rs := foldl_put_append (r := []) (by simpa using hrs)
  rw [List.replicate_succ, List.flatten_cons, List.foldl_append, hfirst,
    foldl_put_of_subset hrs hmore]

end Script.Registry

theorem ValidName.ne_empty {name : String} (h : ValidName name) : name ≠ "" := by
  rintro rfl
  exact absurd h.1 (by decide)

/-- Whether the code of a module is a script of plain definitions. -/
def Module.Defines (m : Module) : Prop :=
  ∃ code program, m.code = .str code ∧ Script.compile code = .ok program ∧
    ∀ stmt ∈ program, stmt.IsPlain

namespace Graph

open Script (Registry Registration Registers written written_injective registeredInput
  registeredKind inputEntries Named Part)

/-- The module `b` has an input that names the module `a`. -/
def Reads (g : Graph) (a b : String) : Prop :=
  a ∈ g.names ∧ ∃ e ∈ g.entries, e.2.name = b ∧ .str a ∈ e.2.inputs

/-- No module reads itself, directly or through others. -/
def Acyclic (g : Graph) : Prop := ∀ a, ¬ Relation.TransGen g.Reads a a

/-- Where all that is read is one module by another, none reads itself. -/
theorem acyclic_of_reads {g : Graph} {a b : String} (hne : a ≠ b)
    (hreads : ∀ x y, g.Reads x y → x = a ∧ y = b) : g.Acyclic := by
  intro x hx
  obtain ⟨y, hxy, hyx⟩ := Relation.TransGen.head'_iff.mp hx
  obtain ⟨rfl, rfl⟩ := hreads x y hxy
  obtain heq | ⟨z, hyz, -⟩ := Relation.ReflTransGen.cases_head hyx
  · exact hne heq.symm
  · exact hne (hreads _ _ hyz).1.symm

theorem acyclic_starter : starter.Acyclic := by
  refine acyclic_of_reads (a := "foo") (b := "test_store") (by decide) ?_
  rintro x y ⟨hx, e, he, rfl, hinput⟩
  simp only [starter, List.mem_cons, List.not_mem_nil, or_false] at he
  obtain rfl | rfl := he
  · rw [Json.str.inj (List.mem_singleton.mp hinput)] at hx
    exact absurd hx (by decide)
  · exact ⟨Json.str.inj (List.mem_singleton.mp hinput), rfl⟩

/-- An input as a manifest lists it: a module by its kind and name, the block by its type. -/
def listedInput (g : Graph) (input : Json) : Json :=
  match g.find? input with
  | some e => .object [(e.2.kind.text, .str e.2.name)]
  | none => .object [("source", .str "sf.ethereum.type.v2.Block")]

/-- A module as a manifest lists it. -/
def listed (g : Graph) (m : Module) : Json :=
  .object [("name", .str m.name), ("kind", .str m.kind.text),
    ("inputs", .list (m.inputs.map g.listedInput)), ("handler", .str m.name)]

/-- Every module stands behind those that it reads. -/
def Placed (g : Graph) (placed : List Module) : Prop :=
  ∀ (i : Nat) m, placed[i]? = some m → ∀ input ∈ m.inputs, ∀ e, g.find? input = some e →
    ∃ j, j < i ∧ placed[j]? = some e.2

/-- A module as the script of the graph registers it. -/
def registered (g : Graph) (m : Module) : Registration := Script.registered m (g.sources m.inputs)

/-- The modules as the script of the graph registers them. -/
def registry (g : Graph) : Registry := (g.entries.map (·.2)).map g.registered

variable {g : Graph}

theorem resolve?_eq_some {input : Json} {source : InputSource} (h : g.resolve? input = some source) :
    (source = .block ∧ g.find? input = none) ∨
      ∃ e, g.find? input = some e ∧ source = .module e.2.kind.text e.2.name := by
  unfold resolve? at h
  split at h
  · rename_i hfind
    exact .inr ⟨_, hfind, (Option.some.inj h).symm⟩
  · rename_i hfind
    split at h
    · split at h
      · exact .inl ⟨(Option.some.inj h).symm, hfind⟩
      · cases h
    · cases h

theorem resolve?_of_find? {input : Json} {e : Scalar × Module} (h : g.find? input = some e) :
    g.resolve? input = some (.module e.2.kind.text e.2.name) := by
  simp [resolve?, h]

theorem named_sources (hg : g.WellNamed) {inputs : List Json} :
    ∀ source ∈ g.sources inputs, Named source := by
  intro source hsource
  obtain ⟨input, -, hresolve⟩ := List.mem_filterMap.mp hsource
  obtain ⟨rfl, -⟩ | ⟨e, hfind, rfl⟩ := resolve?_eq_some hresolve
  · trivial
  · refine ⟨by cases e.2.kind <;> simp [ModuleKind.text], ?_⟩
    exact (hg.valid _ (List.mem_map_of_mem (find?_eq_some hfind).1)).ne_empty

theorem registeredInput_module (kind : ModuleKind) (name : String) :
    registeredInput (.module kind.text name) = ⟨.module (registeredKind kind),
      .str (written name), inputEntries (.module kind.text name)⟩ := by
  cases kind <;> rfl

theorem manifest_registeredInput {input : Json} {source : InputSource}
    (h : g.resolve? input = some source) :
    (registeredInput source).manifest.shown = g.listedInput input := by
  obtain ⟨rfl, hfind⟩ | ⟨e, hfind, rfl⟩ := resolve?_eq_some h
  · simp only [listedInput, hfind]
    rfl
  · rw [registeredInput_module, Registry.shown_input_manifest, Script.toString_written]
    simp only [listedInput, hfind]
    cases e.2.kind <;> rfl

theorem manifest_inputs {inputs : List Json} (h : ∀ input ∈ inputs, (g.resolve? input).isSome) :
    (((g.sources inputs).map registeredInput).map fun input => input.manifest.shown) =
      inputs.map g.listedInput := by
  induction inputs with
  | nil => rfl
  | cons input rest ih =>
      obtain ⟨source, hsource⟩ := Option.isSome_iff_exists.mp (h input List.mem_cons_self)
      have hrest := ih fun i hi => h i (List.mem_cons_of_mem input hi)
      rw [sources] at hrest ⊢
      rw [List.filterMap_cons_some hsource, List.map_cons, List.map_cons, hrest,
        manifest_registeredInput hsource, List.map_cons]

/-- A registered module is listed as it is declared. -/
theorem manifest_registered {m : Module} (h : g.Resolves m) :
    (g.registered m).manifest.shown = g.listed m := by
  simp only [registered, Script.registered, Registry.shown_manifest, manifest_inputs h,
    Script.toString_written, listed]
  cases m.kind <;> rfl

theorem names_registry : g.registry.map (·.name) = g.names.map written := by
  simp [registry, names, registered, Script.registered, Function.comp_def]

theorem nodup_registry (hg : g.WellNamed) : (g.registry.map (·.name)).Nodup := by
  rw [names_registry]
  exact hg.nodup.map written_injective

theorem mem_registry {e : Scalar × Module} (he : e ∈ g.entries) : g.registered e.2 ∈ g.registry :=
  List.mem_map_of_mem (List.mem_map_of_mem he)

/-- The inputs of a registered module stand for inputs that it declares. -/
theorem mem_inputs_registered {m : Module} {input : Script.RegisteredInput}
    (h : input ∈ (g.registered m).inputs) : ∃ i ∈ m.inputs,
      (g.find? i = none ∧ input.kind = .source) ∨ ∃ e, g.find? i = some e ∧
        input.kind = .module (registeredKind e.2.kind) ∧ input.name = .str (written e.2.name) := by
  obtain ⟨source, hsource, rfl⟩ := List.mem_map.mp h
  obtain ⟨i, hi, hresolve⟩ := List.mem_filterMap.mp hsource
  refine ⟨i, hi, ?_⟩
  obtain ⟨rfl, hfind⟩ | ⟨e, hfind, rfl⟩ := resolve?_eq_some hresolve
  · exact .inl ⟨hfind, rfl⟩
  · rw [registeredInput_module]
    exact .inr ⟨e, hfind, rfl, rfl⟩

theorem complete_registry (hg : g.WellNamed) : g.registry.Complete := by
  intro r hr input hinput kind hkind
  obtain ⟨m, -, rfl⟩ := List.mem_map.mp hr
  obtain ⟨i, -, ⟨-, hsource⟩ | ⟨e, hfind, hmodule, hname⟩⟩ := mem_inputs_registered hinput
  · rw [hsource] at hkind
    cases hkind
  · rw [hmodule] at hkind
    cases hkind
    have hregistered := mem_registry (find?_eq_some hfind).1
    exact ⟨_, _, hname, Registry.find?_of_mem (nodup_registry hg) hregistered, rfl⟩

theorem reads_registry {p q : Points} (h : g.registry.Reads p q) :
    ∃ a b, p = written a ∧ q = written b ∧ g.Reads a b := by
  obtain ⟨r, hr, rfl, input, hinput, hkind, hread⟩ := h
  obtain ⟨m, hm, rfl⟩ := List.mem_map.mp hr
  obtain ⟨entry, hentry, rfl⟩ := List.mem_map.mp hm
  obtain ⟨i, hi, ⟨-, hsource⟩ | ⟨e, hfind, -, hname⟩⟩ := mem_inputs_registered hinput
  · exact absurd hsource hkind
  · obtain ⟨he, rfl⟩ := find?_eq_some hfind
    rw [hname] at hread
    cases hread
    exact ⟨e.2.name, entry.2.name, rfl, rfl, List.mem_map_of_mem he, entry, hentry, rfl, hi⟩

theorem transGen_registry {p q : Points} (h : Relation.TransGen g.registry.Reads p q) :
    ∃ a b, p = written a ∧ q = written b ∧ Relation.TransGen g.Reads a b := by
  induction h with
  | single h =>
      obtain ⟨a, b, hp, hq, hreads⟩ := reads_registry h
      exact ⟨a, b, hp, hq, .single hreads⟩
  | tail _ h ih =>
      obtain ⟨a, b, hp, rfl, hab⟩ := ih
      obtain ⟨b', c, hb, hq, hreads⟩ := reads_registry h
      obtain rfl := written_injective hb
      exact ⟨a, c, hp, hq, hab.tail hreads⟩

theorem acyclic_registry (h : g.Acyclic) : g.registry.Acyclic := by
  intro p hp
  obtain ⟨a, b, rfl, hb, hab⟩ := transGen_registry hp
  obtain rfl := written_injective hb
  exact h a hab

theorem eq_of_name_eq (hg : g.WellNamed) {m m' : Module} (hm : m ∈ g.entries.map (·.2))
    (hm' : m' ∈ g.entries.map (·.2)) (h : m.name = m'.name) : m = m' := by
  have hnodup : ((g.entries.map (·.2)).map Module.name).Nodup := by
    simpa [names, Function.comp_def] using hg.nodup
  exact List.inj_on_of_nodup_map hnodup hm hm' h

theorem placed_of_registry (hg : g.WellNamed) {placed : List Module}
    (hperm : placed.Perm (g.entries.map (·.2))) (h : Registry.Placed (placed.map g.registered)) :
    g.Placed placed := by
  intro i m hi input hinput e hfind
  have hread : registeredInput (.module e.2.kind.text e.2.name) ∈ (g.registered m).inputs :=
    List.mem_map_of_mem (List.mem_filterMap.mpr ⟨input, hinput, resolve?_of_find? hfind⟩)
  rw [registeredInput_module] at hread
  obtain ⟨j, source, hlt, hj, hname, -⟩ := h i _ (by simp [hi]) _ hread _ rfl
  rw [List.getElem?_map, Option.map_eq_some_iff] at hj
  obtain ⟨m', hm', rfl⟩ := hj
  refine ⟨j, hlt, ?_⟩
  have hsame : e.2 = m' := by
    refine eq_of_name_eq hg (List.mem_map_of_mem (find?_eq_some hfind).1)
      (hperm.subset (List.mem_of_getElem? hm')) ?_
    exact written_injective (Script.Value.str.inj hname)
  rw [hsame, hm']

/-- The registry has a manifest unless a module of the graph reads itself. The manifest lists each
module once, as it is declared and behind those that it reads. -/
theorem manifestText_registry (hg : g.WellNamed) (hresolves : ∀ e ∈ g.entries, g.Resolves e.2)
    (hacyclic : g.Acyclic) (s : Script.Store) :
    ∃ text placed, g.registry.manifestText s = .ok text ∧
      Json.read text = .ok (.object [("modules", .list (placed.map g.listed))]) ∧
      placed.Perm (g.entries.map (·.2)) ∧ g.Placed placed := by
  obtain ⟨text, htext⟩ := Registry.manifestText_isOk_iff (s := s).mpr
    ⟨complete_registry hg, acyclic_registry hacyclic⟩
  obtain ⟨rs, hperm, hplaced, hread⟩ := Registry.read_manifestText (nodup_registry hg) htext
  have hforall : List.Forall₂ (fun r m => r = g.registered m) g.registry (g.entries.map (·.2)) := by
    rw [registry, List.forall₂_map_left_iff, List.forall₂_same]
    exact fun _ _ => rfl
  obtain ⟨placed, hsame, hmodules⟩ := List.perm_comp_forall₂ hperm hforall
  obtain rfl : rs = placed.map g.registered := by
    rwa [← List.forall₂_eq_eq_eq, List.forall₂_map_right_iff]
  have hlisted : ((placed.map g.registered).map fun m => m.manifest.shown) =
      placed.map g.listed := by
    rw [List.map_map]
    refine List.map_congr_left fun m hm => ?_
    obtain ⟨e, he, rfl⟩ := List.mem_map.mp (hmodules.subset hm)
    exact manifest_registered (hresolves e he)
  exact ⟨text, placed, htext, hlisted ▸ hread, hmodules, placed_of_registry hg hmodules hplaced⟩

theorem exists_parts (hg : g.WellNamed) (ms : List Module) (hmem : ∀ m ∈ ms, m.name ∈ g.names)
    (hcode : ∀ m ∈ ms, m.Defines) : ∃ parts : List Part, parts.map Part.text = ms.map g.part ∧
      Registers (parts.flatMap Part.unit) (ms.map g.registered) := by
  induction ms with
  | nil => exact ⟨[], rfl, .nil⟩
  | cons m rest ih =>
      obtain ⟨parts, htexts, hparts⟩ := ih (fun m' h => hmem m' (List.mem_cons_of_mem m h))
        fun m' h => hcode m' (List.mem_cons_of_mem m h)
      obtain ⟨code, program, hstr, hcompiles, hplain⟩ := hcode m List.mem_cons_self
      let p : Part := {
        module := m, sources := g.sources m.inputs, code, program
        named := (hg.valid m.name (hmem m List.mem_cons_self)).ne_empty
        sourcesNamed := named_sources hg
        compiles := hcompiles }
      have htext : p.text = g.part m := by simp [p, Part.text, part, Module.codeText, hstr]
      exact ⟨p :: parts, by rw [List.map_cons, List.map_cons, htext, htexts],
        .call p.named p.sourcesNamed ((Registers.of_plain hplain).append hparts)⟩

/-- The script of a graph whose code defines functions compiles to what registers its modules. -/
theorem script_registers (hg : g.WellNamed) (hresolves : ∀ e ∈ g.entries, g.Resolves e.2)
    (hcode : ∀ e ∈ g.entries, e.2.Defines) : ∃ text unit, g.script = .ok text ∧
      Script.compile text = .ok unit ∧ Registers unit g.registry := by
  obtain ⟨parts, htexts, hparts⟩ := exists_parts hg (g.entries.map (·.2))
    (List.forall_mem_map.mpr fun _ => List.mem_map_of_mem) (List.forall_mem_map.mpr hcode)
  have htext : g.script = .ok (String.join (parts.map Part.text)) := by
    rw [htexts, List.map_map]
    refine script_eq_ok fun e he => ⟨hresolves e he, ?_⟩
    obtain ⟨code, -, hstr, -⟩ := hcode e he
    exact ⟨code, hstr⟩
  exact ⟨_, _, htext, Script.compile_parts parts, hparts⟩

end Graph

end BlockWorkbench
