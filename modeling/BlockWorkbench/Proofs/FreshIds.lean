import BlockWorkbench.Proofs.Representation

/-!
The ids of modules. As long as a graph is edited and no other is put in its place, the id of a new
module is above every id that was in the graph at any time. So no module is overwritten, and the id
of a module that was taken out is not given out again.
-/

namespace BlockWorkbench

namespace Number

theorem compare?_int (m n : Int) : (Number.int m).compare? (.int n) = some (compare m n) := by
  have hvalue (k : Int) : Binary.shifted ⟨decide (k < 0), k.natAbs, 0⟩ 0 = k := by
    by_cases hk : k < 0
    · simp [Binary.shifted, hk, abs_of_neg hk]
    · simp [Binary.shifted, hk, abs_of_nonneg (not_lt.mp hk)]
  simp [compare?, exact, compareExact?, Binary.compare, hvalue]

theorem same_int {m n : Int} : (Number.int m).same (.int n) ↔ m = n := by
  simp [same, compare?_int]

theorem less_int {m n : Int} : (Number.int m).less (.int n) ↔ m < n := by
  simp [less, compare?_int, compare_lt_iff_lt]

end Number

namespace Scalar

/-- Whether a key is the integer `n`; truth values count as 0 and 1. -/
def IsInteger (a : Scalar) (n : Int) : Prop := a.number? = some (.int n)

theorem IsInteger.same_iff {a b : Scalar} {m n : Int} (ha : a.IsInteger m) (hb : b.IsInteger n) :
    a.same b ↔ m = n := by
  rw [Scalar.same_iff, ← Number.same_int]
  cases a <;> cases b <;> simp_all [IsInteger, number?, toJson, Json.number?]

end Scalar

namespace Graph

/-! ### Ids and changes -/

/-- Putting a module leaves the ids as they are, or adds its own behind them. -/
theorem ids_put (g : Graph) (id : Scalar) (m : Module) :
    (g.put id m).ids = g.ids ∨
      (∀ k ∈ g.ids, k.same id = false) ∧ (g.put id m).ids = g.ids ++ [id] := by
  obtain ⟨before, k, v, after, hg, hk, hbefore⟩ | hnone := Json.find?_same_cases g.entries id
  · exact .inl (by simp [ids, put, hg, Json.setEntry_append hbefore hk])
  · refine .inr ⟨fun k hk => ?_, by simp [ids, put, Json.setEntry_of_forall hnone m]⟩
    obtain ⟨e, he, rfl⟩ := List.mem_map.mp hk
    exact hnone e he

theorem get?_of_entries {g : Graph} {id key : Scalar} {before after : List (Scalar × Module)}
    {m : Module} (hg : g.entries = before ++ (key, m) :: after)
    (hbefore : ∀ e ∈ before, e.1.same id = false) (hkey : key.same id = true) :
    g.get? id = some m := by
  have hnone : before.find? (fun e => e.1.same id) = none :=
    List.find?_eq_none.mpr fun e he => by simp [hbefore e he]
  simp [get?, hg, List.find?_append, hnone, hkey]

/-- What is changed under an id keeps the ids as they are. -/
theorem ids_put_of_lookup {g : Graph} {id : Json} {e : Scalar × Module} (h : g.lookup id = .ok e)
    (m : Module) : (g.put e.1 m).ids = g.ids := by
  obtain ⟨before, after, hentries, hput⟩ := lookup_eq_ok h
  simp [ids, hput, hentries]

/-- Changes after which the graph has no new ids, the others in their order, and the same next
one. -/
structure AddsNoId (g g' : Graph) : Prop where
  ids : g'.ids.Sublist g.ids
  next : g'.next = g.next

theorem AddsNoId.refl (g : Graph) : g.AddsNoId g := ⟨.refl _, rfl⟩

theorem AddsNoId.of_ids_eq {g g' : Graph} (h : g'.ids = g.ids) (hnext : g'.next = g.next) :
    g.AddsNoId g' := ⟨h ▸ .refl _, hnext⟩

theorem addsNoId_modify {g g' : Graph} {id : Json} {f : Module → Except Fault Module}
    (h : g.modify id f = .ok g') : g.AddsNoId g' := by
  obtain ⟨e, he, h⟩ := bind_eq_ok.mp h
  obtain ⟨m, -, h⟩ := bind_eq_ok.mp h
  cases h
  exact .of_ids_eq (ids_put_of_lookup he m) rfl

theorem addsNoId_rename (g : Graph) (id newName : Json) :
    g.AddsNoId (g.rename id newName).2 := by
  have hredirect (g : Graph) (old new : String) : (g.redirectAll old new).ids = g.ids := by
    simp [ids, redirectAll, Function.comp_def]
  obtain ⟨f, hr⟩ | ⟨key, m, -, -, hr⟩ | ⟨key, m, new, hm, rfl, hvalid, hfree⟩ :=
    rename_cases g id newName
  · exact hr ▸ .refl g
  · exact hr ▸ .refl g
  · by_cases hcode : ∃ code, m.code = .str code
    · obtain ⟨code, hcode⟩ := hcode
      rw [rename_of_free hm hcode hvalid hfree]
      exact .of_ids_eq (by rw [hredirect, ids_put_of_lookup hm]) rfl
    · rw [rename_of_free_nonText hm (fun code h => hcode ⟨code, h⟩) hvalid hfree]
      exact .of_ids_eq (ids_put_of_lookup hm _) rfl

theorem addsNoId_remove {g : Graph} {id : Json} {r : Module × Graph} (h : g.remove id = .ok r) :
    g.AddsNoId r.2 := by
  obtain ⟨key, hg⟩ := remove_eq_ok h
  rw [hg]
  exact ⟨List.filter_sublist.map _, rfl⟩

/-! ### Edits -/

namespace Operation

/-- Operations that put a module into the graph under a new id. -/
def inserts : Operation → Bool
  | insert _ | newMap _ | newStore _ _ => true
  | _ => false

/-- Operations that put another graph in the place of the present one. -/
def replaces : Operation → Bool
  | load _ | reload => true
  | _ => false

end Operation

/-- An insertion puts a module under the next id, or fails and changes nothing. -/
theorem perform_inserts (g : Graph) {op : Operation} (h : op.inserts = true) :
    (∃ m, g.perform op = (.ok (.value (idOf g.next).toJson),
      { g.put (idOf g.next) m with next := succ g.next })) ∨
    ∃ f, g.perform op = (.error f, g) := by
  have hchanged (made : Except Fault Module) :
      let done := g.changed do
        let r ← g.insert (← made)
        return (.value r.1.toJson, r.2)
      (∃ m, done = (.ok (.value (idOf g.next).toJson),
        { g.put (idOf g.next) m with next := succ g.next })) ∨ ∃ f, done = (.error f, g) := by
    cases made with
    | error f => exact .inr ⟨f, rfl⟩
    | ok m =>
        cases hm : g.insert m with
        | error f => exact .inr ⟨f, by simp only [ok_bind, hm]; rfl⟩
        | ok r => exact .inl ⟨m, by simp only [ok_bind, hm, (insert_eq_ok hm).2]; rfl⟩
  cases op with
  | insert definition => exact hchanged (Module.ofDefinition definition)
  | newMap name => exact hchanged (Module.newMap name)
  | newStore name source => exact hchanged (Module.newStore name source)
  | _ => cases h

/-- Every other edit adds no id. -/
theorem addsNoId_makes {g g' : Graph} {op : Operation} (hmade : g.Makes op g')
    (h : op.inserts = false) (h' : op.replaces = false) : g.AddsNoId g' := by
  cases hmade with
  | same => exact .refl g
  | insert | newMap | newStore => cases h
  | load | reload => cases h'
  | remove hr => exact addsNoId_remove hr
  | setInputs hg =>
      obtain ⟨items, -, hg⟩ := bind_eq_ok.mp hg
      exact addsNoId_modify hg
  | setCode hg | setUpdatePolicy hg => exact addsNoId_modify hg
  | rename id newName => exact g.addsNoId_rename id newName

theorem addsNoId_perform (g : Graph) {op : Operation} (h : op.inserts = false)
    (h' : op.replaces = false) : g.AddsNoId (g.perform op).2 :=
  addsNoId_makes (g.makes_perform op) h h'

/-! ### Ids below the next one -/

/-- The ids of a graph are integers below the next one. -/
structure BelowNext (g : Graph) (next : Int) : Prop where
  next_eq : g.next = .int next
  below : ∀ id ∈ g.ids, ∃ n < next, id.IsInteger n

namespace BelowNext

variable {g : Graph} {next : Int}

theorem of_addsNoId (h : g.BelowNext next) {g' : Graph} (hg : g.AddsNoId g') :
    g'.BelowNext next :=
  ⟨hg.next.trans h.next_eq, fun id hid => h.below id (hg.ids.subset hid)⟩

/-- A module under the next id stands behind all others. -/
theorem put_next (h : g.BelowNext next) (m : Module) :
    (g.put (idOf g.next) m).entries = g.entries ++ [(.int next, m)] := by
  rw [h.next_eq]
  refine Json.setEntry_of_forall (fun e he => ?_) m
  obtain ⟨n, hn, hid⟩ := h.below e.1 (List.mem_map_of_mem he)
  rw [Bool.eq_false_iff]
  intro hsame
  exact hn.ne ((hid.same_iff (b := .int next) rfl).mp hsame)

theorem insert (h : g.BelowNext next) (m : Module) :
    ({ g.put (idOf g.next) m with next := succ g.next } : Graph).BelowNext (next + 1) where
  next_eq := by rw [h.next_eq, succ]
  below := by
    intro id hid
    simp only [ids, h.put_next m, List.map_append, List.map_singleton, List.mem_append,
      List.mem_singleton] at hid
    obtain hid | rfl := hid
    · obtain ⟨n, hn, hid⟩ := h.below id hid
      exact ⟨n, by omega, hid⟩
    · exact ⟨next, by omega, rfl⟩

/-- No edit lowers the next id or leaves an id that is not below it. -/
theorem perform (h : g.BelowNext next) {op : Operation} (hop : op.replaces = false) :
    ∃ next' ≥ next, (g.perform op).2.BelowNext next' := by
  cases hinserts : op.inserts with
  | false => exact ⟨next, le_refl _, h.of_addsNoId (g.addsNoId_perform hinserts hop)⟩
  | true =>
      obtain ⟨m, hm⟩ | ⟨f, hf⟩ := g.perform_inserts hinserts
      · exact ⟨next + 1, by omega, hm ▸ h.insert m⟩
      · exact ⟨next, le_refl _, hf ▸ h⟩

end BelowNext

/-- The ids that a graph has at any time of a run. -/
def idsAmid (g : Graph) : List Operation → List Scalar
  | [] => g.ids
  | op :: rest => g.ids ++ idsAmid (g.perform op).2 rest

/-- Behind a run all ids that were met on the way are below the next one. -/
theorem BelowNext.after {g : Graph} {next : Int} (h : g.BelowNext next)
    {operations : List Operation} (hops : ∀ op ∈ operations, op.replaces = false) :
    ∃ next' ≥ next, (g.after operations).BelowNext next' ∧
      ∀ id ∈ g.idsAmid operations, ∃ n < next', id.IsInteger n := by
  induction operations generalizing g next with
  | nil => exact ⟨next, le_refl _, h, h.below⟩
  | cons op rest ih =>
      obtain ⟨hop, hrest⟩ := List.forall_mem_cons.mp hops
      obtain ⟨next₁, hle₁, h₁⟩ := h.perform hop
      obtain ⟨next₂, hle₂, h₂, hids⟩ := ih h₁ hrest
      refine ⟨next₂, by omega, h₂, List.forall_mem_append.mpr ⟨fun id hid => ?_, hids⟩⟩
      obtain ⟨n, hn, hid⟩ := h.below id hid
      exact ⟨n, by omega, hid⟩

/-! ### Loaded graphs -/

theorem above_integers {later former : Scalar} {m n : Int} (hl : later.IsInteger m)
    (hf : former.IsInteger n) : above later former = .ok (decide (n < m)) := by
  rw [Scalar.IsInteger] at hl hf
  simp only [above, hl, hf, Except.ok.injEq]
  rw [Bool.eq_iff_iff, Number.less_int, decide_eq_true_eq]

theorem largest_integers {best : Scalar} {n : Int} {ids : List Scalar} (hbest : best.IsInteger n)
    (hids : ∀ id ∈ ids, ∃ n, id.IsInteger n) :
    ∃ top t, largest best ids = .ok top ∧ top.IsInteger t ∧
      ∀ id ∈ best :: ids, ∃ n ≤ t, id.IsInteger n := by
  induction ids generalizing best n with
  | nil => exact ⟨best, n, rfl, hbest, by simpa using ⟨n, le_refl n, hbest⟩⟩
  | cons id ids ih =>
      obtain ⟨⟨k, hid⟩, hrest⟩ := List.forall_mem_cons.mp hids
      simp only [largest, above_integers hid hbest, ok_bind, decide_eq_true_eq]
      split
      · rename_i hlt
        obtain ⟨top, t, htop, ht, hall⟩ := ih hid hrest
        refine ⟨top, t, htop, ht, List.forall_mem_cons.mpr ⟨?_, hall⟩⟩
        obtain ⟨k', hk', hid'⟩ := hall id List.mem_cons_self
        cases hid.symm.trans hid'
        exact ⟨n, by omega, hbest⟩
      · rename_i hle
        obtain ⟨top, t, htop, ht, hall⟩ := ih hbest hrest
        obtain ⟨hfirst, hothers⟩ := List.forall_mem_cons.mp hall
        refine ⟨top, t, htop, ht, List.forall_mem_cons.mpr
          ⟨hfirst, List.forall_mem_cons.mpr ⟨?_, hothers⟩⟩⟩
        obtain ⟨n', hn', hbest'⟩ := hfirst
        cases hbest.symm.trans hbest'
        exact ⟨k, by omega, hid⟩

/-- The id behind integers is above all of them. -/
theorem numberAfter_integers {ids : List Scalar} (h : ∀ id ∈ ids, ∃ n, id.IsInteger n) :
    ∃ next, numberAfter ids = .ok (.int next) ∧ ∀ id ∈ ids, ∃ n < next, id.IsInteger n := by
  cases ids with
  | nil => exact ⟨1, rfl, by simp⟩
  | cons id ids =>
      obtain ⟨⟨n, hid⟩, hrest⟩ := List.forall_mem_cons.mp h
      obtain ⟨top, t, htop, ht, hall⟩ := largest_integers hid hrest
      rw [Scalar.IsInteger] at ht
      refine ⟨t + 1, by simp only [numberAfter, htop, ok_bind, ht]; rfl, fun id hid => ?_⟩
      obtain ⟨n, hn, hid⟩ := hall id hid
      exact ⟨n, by omega, hid⟩

/-- The id that an entry of a definition gives, if it gives one. -/
def givenId? (state : Json) : Option Json :=
  match state.asEntries with
  | .ok entries =>
    match (Json.popEntry entries "id").1 with
    | some .null => none
    | id => id
  | .error _ => none

/-- The ids that the entries of a definition give. -/
def givenIds : Json → List Json
  | .object fields =>
    match (Json.field? fields "modules").map Json.elements with
    | some (.ok states) => states.filterMap givenId?
    | _ => []
  | _ => []

/-- Whether an entry of a definition is that of a module, apart from the id. -/
def Describes (state : Json) (m : Module) : Prop :=
  ∃ entries, state.asEntries = .ok entries ∧
    Module.ofEntries (Json.popEntry entries "id").2 = .ok m

/-- An entry puts its module under the id that it gives, or under the next one. -/
theorem load_cases {g g' : Graph} {state : Json} (h : g.load state = .ok g') :
    ∃ m, Describes state m ∧
      ((givenId? state = none ∧ g' = { g.put (idOf g.next) m with next := succ g.next }) ∨
        ∃ id key, givenId? state = some id ∧ id.asKey = .ok key ∧ g' = g.put key m) := by
  unfold load at h
  obtain ⟨entries, hentries, h⟩ := bind_eq_ok.mp h
  obtain ⟨m, hm, h⟩ := bind_eq_ok.mp h
  refine ⟨m, ⟨entries, hentries, hm⟩, ?_⟩
  split at h
  · rename_i hid
    obtain ⟨r, hr, h⟩ := bind_eq_ok.mp h
    cases h
    exact .inl ⟨by simp only [givenId?, hentries, Json.popEntry, hid], by rw [(insert_eq_ok hr).2]⟩
  · rename_i hid
    obtain ⟨r, hr, h⟩ := bind_eq_ok.mp h
    cases h
    exact .inl ⟨by simp only [givenId?, hentries, Json.popEntry, hid], by rw [(insert_eq_ok hr).2]⟩
  · rename_i id hnull hid
    split at h
    · cases h
    · obtain ⟨key, hkey, h⟩ := bind_eq_ok.mp h
      cases h
      refine .inr ⟨id, key, ?_, hkey, rfl⟩
      simp only [givenId?, hentries, Json.popEntry, hid]
      split <;> simp_all

/-- Graphs with integers for ids. -/
structure Counted (g : Graph) : Prop where
  next : ∃ n, g.next = .int n
  ids : ∀ id ∈ g.ids, ∃ n, id.IsInteger n

theorem Counted.put {g : Graph} (h : g.Counted) {id : Scalar} {n : Int} (hid : id.IsInteger n)
    (m : Module) : (g.put id m).Counted where
  next := h.next
  ids k hk := by
    obtain hput | ⟨-, hput⟩ := g.ids_put id m
    · exact h.ids k (hput ▸ hk)
    · rw [hput, List.mem_append, List.mem_singleton] at hk
      obtain hk | rfl := hk
      · exact h.ids k hk
      · exact ⟨n, hid⟩

theorem Counted.insert {g : Graph} (h : g.Counted) (m : Module) :
    ({ g.put (idOf g.next) m with next := succ g.next } : Graph).Counted := by
  obtain ⟨n, hn⟩ := h.next
  have hid : (idOf g.next).IsInteger n := by
    rw [hn]
    rfl
  exact ⟨⟨n + 1, by rw [hn, succ]⟩, (h.put hid m).ids⟩

theorem toJson_asKey {v : Json} {key : Scalar} (h : v.asKey = .ok key) : key.toJson = v := by
  cases v with
  | null | bool _ | int _ | float _ | str _ =>
      cases h
      rfl
  | list _ | object _ => cases h

theorem Counted.load {g g' : Graph} (h : g.Counted) {state : Json}
    (hid : ∀ id, givenId? state = some id → ∃ n, id.number? = some (.int n))
    (hl : g.load state = .ok g') : g'.Counted := by
  obtain ⟨m, -, ⟨-, rfl⟩ | ⟨id, key, hgiven, hkey, rfl⟩⟩ := load_cases hl
  · exact h.insert m
  · obtain ⟨n, hn⟩ := hid id hgiven
    have hinteger : key.IsInteger n := by rwa [Scalar.IsInteger, Scalar.number?, toJson_asKey hkey]
    exact h.put hinteger m

theorem Counted.foldlM_load {g g' : Graph} (h : g.Counted) {states : List Json}
    (hids : ∀ id ∈ states.filterMap givenId?, ∃ n, id.number? = some (.int n))
    (hl : states.foldlM Graph.load g = .ok g') : g'.Counted :=
  foldlM_keeps hl h fun _ hstate _ _ h hl =>
    h.load (fun id hid => hids id (List.mem_filterMap.mpr ⟨_, hstate, hid⟩)) hl

/-- A definition is loaded entry by entry, and then the next id is set. -/
theorem ofDefinition_eq_ok {definition : Json} {g : Graph} :
    ofDefinition definition = .ok g ↔
      ∃ fields modules states loaded next, definition = .object fields ∧
        ((Json.field? fields "version").getD (.str version)).same (.str version) = true ∧
        Json.field? fields "modules" = some modules ∧ modules.elements = .ok states ∧
        states.foldlM load {} = .ok loaded ∧ numberAfter loaded.ids = .ok next ∧
        { loaded with next } = g := by
  cases definition with
  | object fields =>
      cases hversion : ((Json.field? fields "version").getD (.str version)).same (.str version) with
      | false => simp [ofDefinition, hversion]
      | true =>
          cases hmodules : Json.field? fields "modules" with
          | none => simp [ofDefinition, hversion, hmodules]
          | some modules => simp [ofDefinition, hversion, hmodules, bind_eq_ok]
  | null | bool _ | int _ | float _ | str _ | list _ => simp [ofDefinition]

/-- The ids of a graph that is loaded with integers for ids are below the next one. -/
theorem belowNext_of_loaded {definition : Json} {g : Graph} (h : ofDefinition definition = .ok g)
    (hids : ∀ id ∈ givenIds definition, ∃ n, id.number? = some (.int n)) :
    ∃ next, g.BelowNext next := by
  obtain ⟨fields, modules, states, loaded, next, rfl, -, hmodules, hstates, hloaded, hnext, rfl⟩ :=
    ofDefinition_eq_ok.mp h
  simp only [givenIds, hmodules, Option.map_some, hstates] at hids
  have hcounted : loaded.Counted :=
    Counted.foldlM_load ⟨⟨1, rfl⟩, by simp [Graph.ids]⟩ hids hloaded
  obtain ⟨n, hn, hbelow⟩ := numberAfter_integers hcounted.ids
  cases hn.symm.trans hnext
  exact ⟨n, rfl, hbelow⟩

/-- The graphs that work starts with, where ids that are given are integers. -/
inductive CountedOrigin : Graph → Prop
  | empty : CountedOrigin {}
  | starter : CountedOrigin starter
  | loaded {definition : Json} {g : Graph} (h : ofDefinition definition = .ok g)
      (hids : ∀ id ∈ givenIds definition, ∃ n, id.number? = some (.int n)) : CountedOrigin g

theorem CountedOrigin.belowNext {g : Graph} (h : g.CountedOrigin) : ∃ next, g.BelowNext next := by
  cases h with
  | empty => exact ⟨1, rfl, by simp [ids]⟩
  | starter =>
      refine ⟨3, rfl, ?_⟩
      simp only [ids, Graph.starter, List.map_cons, List.map_nil, List.forall_mem_cons]
      exact ⟨⟨1, by decide, rfl⟩, ⟨2, by decide, rfl⟩, by simp⟩
  | loaded h hids => exact belowNext_of_loaded h hids

/-- An insertion gives out the next id and puts the new module behind all others, or fails and
changes nothing. -/
theorem BelowNext.perform_inserts {g : Graph} {next : Int} (h : g.BelowNext next)
    {op : Operation} (hop : op.inserts = true) :
    (∃ m, g.perform op = (.ok (.value (.int next)),
      { entries := g.entries ++ [(.int next, m)], next := .int (next + 1) })) ∨
    ∃ f, g.perform op = (.error f, g) := by
  obtain ⟨m, hm⟩ | hf := g.perform_inserts hop
  · have hlast : idOf g.next = .int next := by rw [h.next_eq, idOf]
    have hthen : succ g.next = .int (next + 1) := by rw [h.next_eq, succ]
    have hbehind := h.put_next m
    rw [hlast] at hbehind
    exact .inl ⟨m, by simp only [hm, hlast, hthen, hbehind, Scalar.toJson]⟩
  · exact .inr hf

/-- An id that is given out is above all ids that the graph has had, those of modules taken out
among them, so the new module stands behind all others and takes the place of none. An insertion
that fails gives out no id: the graph is what it was, and so is the id that comes next. -/
theorem inserted_id_above {g : Graph} (hg : g.CountedOrigin) {operations : List Operation}
    (hops : ∀ op ∈ operations, op.replaces = false) {op : Operation} (hop : op.inserts = true) :
    let now := g.after operations
    (∃ n m, now.perform op = (.ok (.value (.int n)),
        { entries := now.entries ++ [(.int n, m)], next := .int (n + 1) }) ∧
      ∀ id ∈ g.idsAmid operations, (∃ k < n, id.IsInteger k) ∧ id.same (.int n) = false) ∨
    ∃ f, now.perform op = (.error f, now) := by
  intro now
  obtain ⟨start, hstart⟩ := hg.belowNext
  obtain ⟨next, -, hnow, hids⟩ := hstart.after hops
  obtain ⟨m, hm⟩ | hf := hnow.perform_inserts hop
  · refine .inl ⟨next, m, hm, fun id hid => ?_⟩
    obtain ⟨k, hk, hid⟩ := hids id hid
    refine ⟨⟨k, hk, hid⟩, ?_⟩
    rw [Bool.eq_false_iff]
    exact fun hsame => hk.ne ((hid.same_iff (b := .int next) rfl).mp hsame)
  · exact .inr hf

/-- A definition with a number, no id and a truth value for ids. -/
def mixedIds : Json := .object [("modules", .list [
  .object [("id", .int 4), ("kind", .str "map"), ("name", .str "a")],
  .object [("kind", .str "map"), ("name", .str "b")],
  .object [("id", .bool true), ("kind", .str "map"), ("name", .str "c")]])]

/-- The last module goes, and its id with it. -/
theorem inserted_id_above_removed :
    ∃ g, ofDefinition mixedIds = .ok g ∧
      (∀ id ∈ givenIds mixedIds, ∃ n, id.number? = some (.int n)) ∧
      ((g.after [.remove (.int 4)]).perform (.newMap (.str "d"))).1 = .ok (.value (.int 5)) ∧
      g.idsAmid [.remove (.int 4)] = [.int 4, .int 1, .int 1] ∧
      ∀ id ∈ g.idsAmid [.remove (.int 4)], (∃ k < 5, id.IsInteger k) ∧ id.same (.int 5) = false := by
  have hload : ofDefinition mixedIds = .ok {
      entries := [(.int 4, { kind := .map, name := "a" }), (.int 1, { kind := .map, name := "c" })]
      next := .int 5 } := by rfl
  have hgiven : givenIds mixedIds = [.int 4, .bool true] := by rfl
  have hids : ∀ id ∈ givenIds mixedIds, ∃ n, id.number? = some (.int n) := by
    rw [hgiven]
    simp [Json.number?]
  refine ⟨_, hload, hids, by rfl, by rfl, ?_⟩
  obtain ⟨n, m, hinserted, habove⟩ | ⟨f, hf⟩ := @inserted_id_above _ (.loaded hload hids)
    [.remove (.int 4)] (by simp [Operation.replaces]) (.newMap (.str "d")) rfl
  · cases hinserted
    exact habove
  · cases hf

end Graph

end BlockWorkbench
