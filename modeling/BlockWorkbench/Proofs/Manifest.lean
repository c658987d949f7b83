import BlockWorkbench.Script.Builtin
import BlockWorkbench.Proofs.Json.RoundTrip
import BlockWorkbench.Proofs.ProcessingOrder

/-!
The manifest of the registered modules. It is written exactly if every input that is not the block
names a registered module of the kind it says and no module reads itself, directly or through
others. Its text then holds one entry for each module, behind those of all modules that it reads.
-/

namespace BlockWorkbench.Script

namespace Registry

/-- The registries that registrations and resets lead to from an empty one. -/
inductive Reachable : Registry → Prop
  | reset : Reachable []
  | register {r r' : Registry} (s : Store) (kind : RegisteredKind) (spec : Value) :
      Reachable r → r.register s kind spec = .ok r' → Reachable r'

/-- Whether an input is the block or names a registered module of its kind. -/
def Resolved (r : Registry) (input : RegisteredInput) : Prop :=
  ∀ kind, input.kind = .module kind →
    ∃ name source, input.name = .str name ∧ r.find? name = some source ∧ source.kind = kind

/-- Every input of every module is resolved. -/
def Complete (r : Registry) : Prop := ∀ m ∈ r, ∀ input ∈ m.inputs, r.Resolved input

/-- The module `b` has an input that names the module `a`. -/
def Reads (r : Registry) (a b : Points) : Prop :=
  ∃ m ∈ r, m.name = b ∧ ∃ input ∈ m.inputs, input.kind ≠ .source ∧ input.name = .str a

/-- No module reads itself, directly or through others. -/
def Acyclic (r : Registry) : Prop := ∀ a, ¬ Relation.TransGen r.Reads a a

/-- The link that an input of a module makes. -/
def inputLink (m : Registration) (input : RegisteredInput) : Option (Order.Link Points) :=
  match input.kind, input.name with
  | .module _, .str name => some ⟨name, m.name⟩
  | _, _ => none

def moduleLinks (ms : List Registration) : List (Order.Link Points) :=
  ms.flatMap fun m => m.inputs.filterMap (inputLink m)

theorem literal_str (s : Store) (t : Points) : s.literal (.str t) = .ok t.quoted := by
  simp [Store.literal, nestingLimit, Store.literalWithin]

theorem asKey_eq_ok {v key : Value} (h : v.asKey = .ok key) : key = v := by
  unfold Value.asKey at h
  split at h
  · cases h
  · cases h
    rfl

/-- An input makes a link, or none for the block, exactly if it is resolved. -/
theorem link?_eq_ok_iff {r : Registry} {s : Store} {m : Registration} {input : RegisteredInput}
    {link : Option (Order.Link Points)} :
    r.link? s m input = .ok link ↔ r.Resolved input ∧ link = inputLink m input := by
  obtain ⟨kind, name, entries⟩ := input
  cases kind with
  | source => simp [link?, Resolved, inputLink, eq_comm]
  | module kind =>
      constructor
      · intro h
        simp only [link?, bind_eq_ok] at h
        obtain ⟨key, hkey, text, -, h⟩ := h
        obtain rfl := asKey_eq_ok hkey
        split at h
        · rename_i n
          split at h
          · rename_i source hfind
            split at h
            · rename_i hsame
              cases h
              refine ⟨?_, rfl⟩
              intro kind' hkind
              cases hkind
              exact ⟨n, source, rfl, hfind, hsame⟩
            · cases h
          · cases h
        · cases h
      · rintro ⟨hres, rfl⟩
        obtain ⟨n, source, hname, hfind, hsame⟩ := hres kind rfl
        simp only at hname
        subst hname
        simp [link?, inputLink, Value.asKey, Value.unhashable?, literal_str, hfind, hsame]

theorem linksOf_eq_ok_iff {r : Registry} {s : Store} {m : Registration}
    {inputs : List RegisteredInput} {found : List (Order.Link Points)} :
    r.linksOf s m inputs = .ok found ↔
      (∀ input ∈ inputs, r.Resolved input) ∧ found = inputs.filterMap (inputLink m) := by
  induction inputs generalizing found with
  | nil => simp [linksOf, eq_comm]
  | cons input rest ih =>
      simp only [linksOf, bind_eq_ok, link?_eq_ok_iff, ih, List.forall_mem_cons]
      constructor
      · rintro ⟨link, ⟨hinput, rfl⟩, found', ⟨hrest, rfl⟩, h⟩
        cases h
        refine ⟨⟨hinput, hrest⟩, ?_⟩
        cases hlink : inputLink m input <;> simp [hlink]
      · rintro ⟨⟨hinput, hrest⟩, rfl⟩
        refine ⟨_, ⟨hinput, rfl⟩, _, ⟨hrest, rfl⟩, ?_⟩
        cases hlink : inputLink m input <;> simp [hlink]

theorem links_eq_ok_iff {r : Registry} {s : Store} {ms : List Registration}
    {found : List (Order.Link Points)} :
    r.links s ms = .ok found ↔
      (∀ m ∈ ms, ∀ input ∈ m.inputs, r.Resolved input) ∧ found = moduleLinks ms := by
  induction ms generalizing found with
  | nil => simp [links, moduleLinks, eq_comm]
  | cons m rest ih =>
      simp only [links, bind_eq_ok, linksOf_eq_ok_iff, ih, List.forall_mem_cons]
      constructor
      · rintro ⟨here, ⟨hm, rfl⟩, found', ⟨hrest, rfl⟩, h⟩
        cases h
        exact ⟨⟨hm, hrest⟩, by simp [moduleLinks]⟩
      · rintro ⟨⟨hm, hrest⟩, rfl⟩
        exact ⟨_, ⟨hm, rfl⟩, _, ⟨hrest, rfl⟩, by simp [moduleLinks]⟩

/-- The links say who reads whom. -/
theorem precedes_moduleLinks (r : Registry) : Order.Precedes (moduleLinks r) = r.Reads := by
  funext a b
  simp only [Order.Precedes, moduleLinks, List.mem_flatMap, List.mem_filterMap, Reads, eq_iff_iff]
  refine exists_congr fun m => and_congr_right fun _ => ?_
  constructor
  · rintro ⟨⟨kind, name, entries⟩, hinput, hlink⟩
    cases kind with
    | source => simp [inputLink] at hlink
    | module kind =>
        cases name with
        | str n =>
            simp only [inputLink, Option.some.injEq, Order.Link.mk.injEq] at hlink
            exact ⟨hlink.2, _, hinput, by simp, by simp [hlink.1]⟩
        | _ => simp [inputLink] at hlink
  · rintro ⟨hname, ⟨kind, name, entries⟩, hinput, hkind, hread⟩
    cases kind with
    | source => simp at hkind
    | module kind =>
        simp only at hread
        subst hread
        exact ⟨_, hinput, by simp [inputLink, hname]⟩

theorem acyclic_iff (r : Registry) : r.Acyclic ↔ Order.Acyclic (moduleLinks r) := by
  rw [Acyclic, Order.Acyclic, precedes_moduleLinks]

theorem mem_names_put {r : Registry} {m : Registration} {name : Points} :
    name ∈ (r.put m).map (·.name) → name = m.name ∨ name ∈ r.map (·.name) := by
  induction r with
  | nil => simp [put]
  | cons n rest ih =>
      simp only [put]
      split
      · rename_i hsame
        simp [hsame]
      · simp only [List.map_cons, List.mem_cons]
        rintro (h | h)
        · exact .inr (.inl h)
        · obtain h | h := ih h
          · exact .inl h
          · exact .inr (.inr h)

theorem nodup_put {r : Registry} (h : (r.map (·.name)).Nodup) (m : Registration) :
    ((r.put m).map (·.name)).Nodup := by
  induction r with
  | nil => simp [put]
  | cons n rest ih =>
      simp only [List.map_cons, List.nodup_cons] at h
      simp only [put]
      split
      · rename_i hsame
        simpa [← hsame] using h
      · rename_i hne
        simp only [List.map_cons, List.nodup_cons]
        refine ⟨fun hmem => ?_, ih h.2⟩
        obtain hname | hmem := mem_names_put hmem
        · exact hne hname
        · exact h.1 hmem

/-- A registry has one module of each name. -/
theorem Reachable.nodup {r : Registry} (h : r.Reachable) : (r.map (·.name)).Nodup := by
  induction h with
  | reset => exact List.nodup_nil
  | register s kind spec _ hr ih =>
      obtain ⟨m, -, hm⟩ := bind_eq_ok.mp hr
      cases hm
      exact nodup_put ih m

theorem find?_eq_some {r : Registry} {name : Points} {m : Registration}
    (h : r.find? name = some m) : m ∈ r ∧ m.name = name :=
  ⟨List.mem_of_find?_eq_some h, by simpa using List.find?_some h⟩

theorem find?_of_mem {r : Registry} (hr : (r.map (·.name)).Nodup) {m : Registration} (hm : m ∈ r) :
    r.find? m.name = some m := by
  cases h : r.find? m.name with
  | none =>
      simp only [find?, List.find?_eq_none, beq_iff_eq] at h
      exact absurd rfl (h m hm)
  | some m' =>
      obtain ⟨hm', hname⟩ := find?_eq_some h
      rw [List.inj_on_of_nodup_map hr hm' hm hname]

/-- Names of a registry in any order are those of its modules in that order. -/
theorem filterMap_find? {r : Registry} (hr : (r.map (·.name)).Nodup) {names : List Points}
    (h : names.Perm (r.map (·.name))) :
    ∃ placed : List Registration, names.filterMap r.find? = placed ∧ placed.Perm r ∧
      placed.map (·.name) = names := by
  refine ⟨_, rfl, ?_, ?_⟩
  · refine (h.filterMap r.find?).trans ?_
    rw [List.filterMap_map]
    have hfind : ∀ m ∈ r, (r.find? ∘ fun m => m.name) m = some m := fun m hm => find?_of_mem hr hm
    rw [List.filterMap_congr hfind, List.filterMap_some]
  · have hmem : ∀ name ∈ names, ∃ m, r.find? name = some m ∧ m.name = name := by
      intro name hname
      obtain ⟨m, hm, rfl⟩ := List.mem_map.mp (h.subset hname)
      exact ⟨m, find?_of_mem hr hm, rfl⟩
    clear h
    induction names with
    | nil => rfl
    | cons name rest ih =>
        obtain ⟨m, hm, hname⟩ := hmem name List.mem_cons_self
        have hrest := ih fun n hn => hmem n (List.mem_cons_of_mem name hn)
        simp [hm, hname, hrest]

/-- A linked name is that of a registered module. -/
theorem Complete.mentions {r : Registry} (h : r.Complete) {l : Order.Link Points}
    (hl : l ∈ moduleLinks r) : l.before ∈ r.map (·.name) ∧ l.after ∈ r.map (·.name) := by
  have hreads : r.Reads l.before l.after := by
    rw [← precedes_moduleLinks]
    exact hl
  obtain ⟨m, hm, hname, input, hinput, hkind, hread⟩ := hreads
  refine ⟨?_, List.mem_map.mpr ⟨m, hm, hname⟩⟩
  cases hk : input.kind with
  | source => exact absurd hk hkind
  | module kind =>
      obtain ⟨name, source, hn, hfind, -⟩ := h m hm input hinput kind hk
      cases hread.symm.trans hn
      obtain ⟨hsource, hname⟩ := find?_eq_some hfind
      exact List.mem_map.mpr ⟨source, hsource, hname⟩

/-- The names have an order exactly if the registry is complete and no module reads itself. -/
theorem order_isOk_iff {r : Registry} {s : Store} :
    (∃ names, r.order s = .ok names) ↔ r.Complete ∧ r.Acyclic := by
  rw [acyclic_iff]
  constructor
  · rintro ⟨names, h⟩
    obtain ⟨found, hfound, h⟩ := bind_eq_ok.mp h
    obtain ⟨hcomplete, rfl⟩ := links_eq_ok_iff.mp hfound
    split at h
    · exact ⟨hcomplete, (Order.processingOrder_isOk_iff.mp ⟨_, ‹_›⟩).1⟩
    · cases h
  · rintro ⟨hcomplete, hacyclic⟩
    obtain ⟨names, hnames⟩ : ∃ names, Order.processingOrder Points.atMost (moduleLinks r)
        (some (r.map (·.name))) = .ok names :=
      Order.processingOrder_isOk_iff.mpr ⟨hacyclic, fun l hl => Complete.mentions hcomplete hl⟩
    refine ⟨names, ?_⟩
    simp [order, links_eq_ok_iff.mpr ⟨hcomplete, rfl⟩, hnames]

/-- The order has the name of each module once, and a module that is read before its reader. -/
theorem order_spec {r : Registry} (hr : (r.map (·.name)).Nodup) {s : Store} {names : List Points}
    (h : r.order s = .ok names) :
    names.Perm (r.map (·.name)) ∧ names.Pairwise fun a b => ¬ r.Reads b a := by
  obtain ⟨found, hfound, h⟩ := bind_eq_ok.mp h
  obtain ⟨-, rfl⟩ := links_eq_ok_iff.mp hfound
  split at h
  · cases h
    have hspec := Order.processingOrder_spec hr ‹_›
    rwa [Order.Respects, precedes_moduleLinks] at hspec
  · cases h

/-- Every module stands behind all modules that it reads, each of which is of the kind that the
input says. -/
def Placed (placed : List Registration) : Prop :=
  ∀ (i : Nat) m, placed[i]? = some m → ∀ input ∈ m.inputs, ∀ kind, input.kind = .module kind →
    ∃ (j : Nat) (source : Registration), j < i ∧ placed[j]? = some source ∧
      input.name = .str source.name ∧ source.kind = kind

theorem placed_of_order {r : Registry} (hcomplete : r.Complete) (hacyclic : r.Acyclic)
    {placed : List Registration} (hperm : placed.Perm r)
    (hnames : (placed.map (·.name)).Pairwise fun a b => ¬ r.Reads b a) : Placed placed := by
  intro i m hi input hinput kind hkind
  have hm : m ∈ r := hperm.subset (List.mem_of_getElem? hi)
  obtain ⟨name, source, hname, hfind, hsame⟩ := hcomplete m hm input hinput kind hkind
  obtain ⟨hsource, rfl⟩ := find?_eq_some hfind
  obtain ⟨j, hj⟩ := List.getElem?_of_mem (hperm.symm.subset hsource)
  have hreads : r.Reads source.name m.name := ⟨m, hm, rfl, input, hinput, by simp [hkind], hname⟩
  refine ⟨j, source, ?_, hj, hname, hsame⟩
  by_contra hlt
  obtain heq | hlt := Nat.eq_or_lt_of_le (Nat.le_of_not_lt hlt)
  · subst heq
    cases hi.symm.trans hj
    exact hacyclic m.name (.single hreads)
  · obtain ⟨hilen, rfl⟩ := List.getElem?_eq_some_iff.mp hi
    obtain ⟨hjlen, rfl⟩ := List.getElem?_eq_some_iff.mp hj
    have hpair := List.pairwise_iff_getElem.mp hnames i j (by simpa using hilen)
      (by simpa using hjlen) hlt
    exact hpair (by simpa using hreads)

theorem shown_input_manifest (kind : RegisteredKind) (t : Points)
    (entries : List (Value × Value)) :
    (RegisteredInput.manifest ⟨.module kind, .str t, entries⟩).shown =
      .object [(kind.text, .str t.toString)] := by
  simp [RegisteredInput.manifest, Json.shown, Json.mapTexts, Json.mapFields,
    Points.toString_ofString]

theorem shown_manifest (m : Registration) : m.manifest.shown =
    .object [("name", .str m.name.toString), ("kind", .str m.kind.text),
      ("inputs", .list (m.inputs.map fun input => input.manifest.shown)),
      ("handler", .str m.handler.toString)] := by
  simp [Registration.manifest, Json.shown, Json.mapTexts, Json.mapFields, Json.mapItems_eq_map,
    Points.toString_ofString]

theorem readable_manifest (depth : Nat) (m : Registration) :
    Json.Readable (depth + 3) m.manifest.shown := by
  have hinputs :
      Json.ReadableItems (depth + 1) (m.inputs.map fun input => input.manifest.shown) := by
    rw [Json.readableItems_iff]
    intro v hv
    obtain ⟨input, -, rfl⟩ := List.mem_map.mp hv
    unfold RegisteredInput.manifest
    split <;> simp [Json.shown, Json.mapTexts, Json.mapFields, Json.Readable, Json.ReadableFields]
  simp [shown_manifest, Json.Readable, Json.ReadableFields, hinputs]

/-- The text of a manifest is read as the entries of all modules, in an order in which each stands
behind those that it reads. -/
theorem read_manifestText {r : Registry} (hr : (r.map (·.name)).Nodup) {s : Store} {text : String}
    (h : r.manifestText s = .ok text) :
    ∃ placed : List Registration, placed.Perm r ∧ Placed placed ∧
      Json.read text = .ok (.object [("modules", .list (placed.map fun m => m.manifest.shown))]) := by
  obtain ⟨v, hv, h⟩ := bind_eq_ok.mp h
  cases h
  obtain ⟨names, hnames, hv⟩ := bind_eq_ok.mp hv
  cases hv
  obtain ⟨hcomplete, hacyclic⟩ := order_isOk_iff.mp ⟨names, hnames⟩
  obtain ⟨hperm, hpairs⟩ := order_spec hr hnames
  obtain ⟨placed, hplaced, hpermr, hnamesr⟩ := filterMap_find? hr hperm
  rw [hplaced]
  refine ⟨placed, hpermr, placed_of_order hcomplete hacyclic hpermr (hnamesr ▸ hpairs), ?_⟩
  have hblank : manifestStyle.Blank := by
    intro blanks hblanks c hc
    cases hblanks
    simp only [List.mem_cons, List.not_mem_nil, or_false, or_self] at hc
    rw [hc]
    rfl
  have hlisted : Json.shown (.object [("modules", .list (placed.map Registration.manifest))]) =
      .object [("modules", .list (placed.map fun m => m.manifest.shown))] := by
    simp [Json.shown, Json.mapTexts, Json.mapFields, Json.mapItems_eq_map,
      Points.toString_ofString]
  have hreadable : Json.Readable Json.depthLimit
      (.object [("modules", .list (placed.map fun m => m.manifest.shown))]) := by
    have hitems : Json.ReadableItems 978 (placed.map fun m => m.manifest.shown) := by
      rw [Json.readableItems_iff]
      intro v hv
      obtain ⟨m, -, rfl⟩ := List.mem_map.mp hv
      exact readable_manifest 975 m
    simp [Json.depthLimit, Json.Readable, Json.ReadableFields, hitems]
  rw [← hlisted, ← Json.mapTexts_reread manifestStyle.ascii] at hreadable ⊢
  exact Json.readAll_write hblank hreadable

theorem manifestText_isOk_iff {r : Registry} {s : Store} :
    (∃ text, r.manifestText s = .ok text) ↔ r.Complete ∧ r.Acyclic := by
  rw [← order_isOk_iff (s := s)]
  constructor
  · rintro ⟨text, h⟩
    obtain ⟨v, hv, -⟩ := bind_eq_ok.mp h
    obtain ⟨names, hnames, -⟩ := bind_eq_ok.mp hv
    exact ⟨names, hnames⟩
  · rintro ⟨names, hnames⟩
    simp only [manifestText, manifest, hnames, ok_bind, pure_eq_ok]
    exact ⟨_, rfl⟩

end Registry

/-- How an input is listed: the block by its type, a module by kind and name. -/
inductive ListedInput : RegisteredInput → Json → Prop
  | block {name : Value} {entries : List (Value × Value)} :
      ListedInput ⟨.source, name, entries⟩ (.object [("source", .str "sf.ethereum.type.v2.Block")])
  | map {name : String} {entries : List (Value × Value)} :
      ListedInput ⟨.module .map, .str (.ofString name), entries⟩ (.object [("map", .str name)])
  | store {name : String} {entries : List (Value × Value)} :
      ListedInput ⟨.module .store, .str (.ofString name), entries⟩ (.object [("store", .str name)])

/-- The entry of a module in a manifest. -/
inductive ListedModule : Registration → Json → Prop
  | map {name handler : String} {inputs : List RegisteredInput} {listed : List Json}
      (h : List.Forall₂ ListedInput inputs listed) :
      ListedModule ⟨.map, .ofString name, .ofString handler, inputs⟩ (.object [("name", .str name),
        ("kind", .str "map"), ("inputs", .list listed), ("handler", .str handler)])
  | store {name handler : String} {inputs : List RegisteredInput} {listed : List Json}
      (h : List.Forall₂ ListedInput inputs listed) :
      ListedModule ⟨.store, .ofString name, .ofString handler, inputs⟩ (.object [
        ("name", .str name), ("kind", .str "store"), ("inputs", .list listed),
        ("handler", .str handler)])

theorem listedInputs {inputs : List RegisteredInput}
    (h : ∀ input ∈ inputs, ∀ kind, input.kind = .module kind →
      ∃ name : Points, input.name = .str name ∧ name.Whole) :
    List.Forall₂ ListedInput inputs (inputs.map fun input => input.manifest.shown) := by
  rw [List.forall₂_map_right_iff, List.forall₂_same]
  rintro ⟨kind, name, entries⟩ hinput
  cases kind with
  | source => cases name <;> exact .block
  | module kind =>
      obtain ⟨t, ht, hwhole⟩ := h _ hinput kind rfl
      simp only at ht
      obtain ⟨s, rfl⟩ := hwhole.exists_ofString
      subst ht
      rw [Registry.shown_input_manifest, Points.toString_ofString]
      cases kind with
      | map => exact .map
      | store => exact .store

/-- The text of a registry without halves of pairs lists every module as it was registered. -/
theorem listedModules {r : Registry}
    (hwhole : ∀ m ∈ r, m.name.Whole ∧ m.handler.Whole) {placed : List Registration}
    (hperm : placed.Perm r) (hplaced : Registry.Placed placed) :
    List.Forall₂ ListedModule placed (placed.map fun m => m.manifest.shown) := by
  rw [List.forall₂_map_right_iff, List.forall₂_same]
  intro m hm
  obtain ⟨i, hi⟩ := List.getElem?_of_mem hm
  have hlisted : List.Forall₂ ListedInput m.inputs
      (m.inputs.map fun input => input.manifest.shown) := by
    refine listedInputs fun input hinput kind hkind => ?_
    obtain ⟨j, source, -, hj, hname, -⟩ := hplaced i m hi input hinput kind hkind
    exact ⟨source.name, hname, (hwhole source (hperm.subset (List.mem_of_getElem? hj))).1⟩
  obtain ⟨hname, hhandler⟩ := hwhole m (hperm.subset hm)
  obtain ⟨kind, name, handler, inputs⟩ := m
  obtain ⟨name, rfl⟩ := hname.exists_ofString
  obtain ⟨handler, rfl⟩ := hhandler.exists_ofString
  rw [Registry.shown_manifest, Points.toString_ofString, Points.toString_ofString]
  cases kind with
  | map => exact .map hlisted
  | store => exact .store hlisted

theorem call_manifest (m : Machine) :
    Builtin.call .manifest [] m =
      match m.registry.manifestText m.store with
      | .ok text => (.value (.str (.ofString text)), m)
      | .error f => (.raised (.fault f), m) := rfl

/-- Asking for the manifest changes nothing. It is given exactly if every input but the block names
a registered module of its kind and no module reads itself, directly or through others, and an
error is raised if not. The text lists each module once, behind all that it reads. -/
theorem manifest_call_lists_modules {m : Machine} (hr : m.registry.Reachable) :
    (Builtin.call .manifest [] m).2 = m ∧
    ((∃ v, (Builtin.call .manifest [] m).1 = .value v) ↔
      m.registry.Complete ∧ m.registry.Acyclic) ∧
    (¬ (m.registry.Complete ∧ m.registry.Acyclic) →
      ∃ f, (Builtin.call .manifest [] m).1 = .raised (.fault f)) ∧
    ∀ v, (Builtin.call .manifest [] m).1 = .value v →
      (∀ n ∈ m.registry, n.name.Whole ∧ n.handler.Whole) →
      ∃ text placed listed, v = .str (.ofString text) ∧
        Json.read text = .ok (.object [("modules", .list listed)]) ∧
        List.Forall₂ ListedModule placed listed ∧ placed.Perm m.registry ∧
        Registry.Placed placed := by
  have hiff := Registry.manifestText_isOk_iff (r := m.registry) (s := m.store)
  cases htext : m.registry.manifestText m.store with
  | error f =>
      have hnot : ¬ (m.registry.Complete ∧ m.registry.Acyclic) := by
        rw [← hiff, htext]
        simp
      rw [call_manifest, htext]
      exact ⟨rfl, by simp [hnot], fun _ => ⟨f, rfl⟩, by simp⟩
  | ok text =>
      have hboth : m.registry.Complete ∧ m.registry.Acyclic := hiff.mp ⟨text, htext⟩
      rw [call_manifest, htext]
      refine ⟨rfl, by simp [hboth], fun hnot => absurd hboth hnot, ?_⟩
      rintro v hv hwhole
      cases hv
      obtain ⟨placed, hperm, hplaced, hread⟩ := Registry.read_manifestText hr.nodup htext
      exact ⟨text, placed, _, rfl, hread, listedModules hwhole hperm hplaced, hperm, hplaced⟩

/-- The dictionaries that register a map over the block and a store that reads it. -/
def chainStore : Store where
  dicts := #[
    [(.str (.ofString "kind"), .str (.ofString "source"))],
    [(.str (.ofString "kind"), .str (.ofString "map")),
      (.str (.ofString "name"), .str (.ofString "a"))],
    [(.str (.ofString "name"), .str (.ofString "a")),
      (.str (.ofString "handler"), .str (.ofString "f")),
      (.str (.ofString "inputs"), .tuple [.dict 0])],
    [(.str (.ofString "name"), .str (.ofString "b")),
      (.str (.ofString "handler"), .str (.ofString "g")),
      (.str (.ofString "inputs"), .tuple [.dict 1])]]

def chainRegistry : Registry := [
  ⟨.map, .ofString "a", .ofString "f", [⟨.source, .none, chainStore.entries 0⟩]⟩,
  ⟨.store, .ofString "b", .ofString "g",
    [⟨.module .map, .str (.ofString "a"), chainStore.entries 1⟩]⟩]

theorem reachable_chainRegistry : chainRegistry.Reachable := by
  have hmap : Registry.register [] chainStore .map (.dict 2) = .ok (chainRegistry.take 1) := by rfl
  have hstore : Registry.register (chainRegistry.take 1) chainStore .store (.dict 3) =
      .ok chainRegistry := by rfl
  exact .register _ _ _ (.register _ _ _ .reset hmap) hstore

theorem reads_chainRegistry {a b : Points} (h : chainRegistry.Reads a b) :
    a = .ofString "a" ∧ b = .ofString "b" := by
  obtain ⟨m, hm, rfl, input, hinput, hkind, hname⟩ := h
  simp only [chainRegistry, List.mem_cons, List.not_mem_nil, or_false] at hm
  obtain rfl | rfl := hm
  · simp only [List.mem_singleton] at hinput
    subst hinput
    exact absurd rfl hkind
  · simp only [List.mem_singleton] at hinput
    subst hinput
    cases hname
    exact ⟨rfl, rfl⟩

/-- The manifest of the two is given and lists them. -/
theorem manifest_call_lists_chain :
    ∃ v text placed listed,
      (Builtin.call .manifest [] { store := chainStore, registry := chainRegistry }).1 = .value v ∧
        v = .str (.ofString text) ∧
        Json.read text = .ok (.object [("modules", .list listed)]) ∧
        List.Forall₂ ListedModule placed listed ∧ placed.Perm chainRegistry ∧
        Registry.Placed placed := by
  obtain ⟨-, hiff, -, hlisted⟩ := manifest_call_lists_modules
    (m := { store := chainStore, registry := chainRegistry }) reachable_chainRegistry
  have hcomplete : chainRegistry.Complete := by
    intro m hm input hinput kind hkind
    simp only [chainRegistry, List.mem_cons, List.not_mem_nil, or_false] at hm
    obtain rfl | rfl := hm
    · rw [List.mem_singleton.mp hinput] at hkind
      cases hkind
    · rw [List.mem_singleton.mp hinput] at hkind ⊢
      cases hkind
      exact ⟨.ofString "a", _, rfl, rfl, rfl⟩
  have hacyclic : chainRegistry.Acyclic := by
    intro a ha
    obtain ⟨b, hab, hba⟩ := Relation.TransGen.head'_iff.mp ha
    obtain ⟨rfl, rfl⟩ := reads_chainRegistry hab
    obtain heq | ⟨c, hbc, -⟩ := Relation.ReflTransGen.cases_head hba
    · exact absurd heq (by decide)
    · exact absurd (reads_chainRegistry hbc).1 (by decide)
  obtain ⟨v, hv⟩ := hiff.mpr ⟨hcomplete, hacyclic⟩
  have hwhole : ∀ n ∈ chainRegistry, n.name.Whole ∧ n.handler.Whole := by
    simp only [chainRegistry, List.mem_cons, List.not_mem_nil, or_false]
    rintro n (rfl | rfl) <;> exact ⟨Points.whole_ofString _, Points.whole_ofString _⟩
  obtain ⟨text, placed, listed, h⟩ := hlisted v hv hwhole
  exact ⟨v, text, placed, listed, hv, h⟩

end BlockWorkbench.Script
