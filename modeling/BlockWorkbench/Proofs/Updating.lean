import BlockWorkbench.Api
import BlockWorkbench.Proofs.FreshIds

/-!
Updates of a module. What is given of its code, inputs and policy is set in this order, each field
by an operation of its own, and the first field that cannot be set ends the update. There is no way
back: the fields before it stay set. Nothing else of the graph changes, whether the update comes to
its end or not.
-/

namespace BlockWorkbench

namespace Json

/-- Keys that are equal set the same entry, as long as one of them is there. -/
theorem setEntry_congr {α : Type} {k key : Scalar} (h : k.same key = true)
    {entries : List (Scalar × α)} (hk : k ∈ entries.map (·.1)) (value : α) :
    setEntry entries k value = setEntry entries key value := by
  induction entries with
  | nil => simp at hk
  | cons e rest ih =>
      simp only [setEntry, Scalar.same_congr h e.1]
      split
      · rfl
      · rename_i hne
        obtain rfl | hk := List.mem_cons.mp hk
        · exact absurd h hne
        · rw [ih hk]

end Json

namespace Module

/-- The fields that an update may give. -/
inductive Field where
  | code
  | inputs
  | policy
  deriving DecidableEq, Repr

namespace Field

/-- Whether a module has a field set to what is given for it. -/
def Holds : Field → Json → Module → Prop
  | code, v, m => m.code = v
  | inputs, v, m => v.elements = .ok m.inputs
  | policy, v, m => ∃ policy, UpdatePolicy.parse v = .ok policy ∧ m.kind = .store policy

/-- Whether two modules agree in a field. -/
def Same : Field → Module → Module → Prop
  | code, m, m' => m'.code = m.code
  | inputs, m, m' => m'.inputs = m.inputs
  | policy, m, m' => m'.kind = m.kind

theorem Same.trans {field : Field} {m m₁ m₂ : Module} (h : field.Same m m₁)
    (h' : field.Same m₁ m₂) : field.Same m m₂ := by
  cases field <;> exact Eq.trans h' h

theorem Holds.of_same {field : Field} {v : Json} {m m' : Module} (h : field.Holds v m)
    (hsame : field.Same m m') : field.Holds v m' := by
  cases field with
  | code => exact Eq.trans hsame h
  | inputs => exact h.trans (congrArg Except.ok hsame.symm)
  | policy =>
      obtain ⟨policy, hpolicy, hkind⟩ := h
      exact ⟨policy, hpolicy, Eq.trans hsame hkind⟩

/-- The operation of a graph that sets the field of a module. -/
def change : Field → Json → Json → Graph → Except Fault Graph
  | code, id, v, g => g.setCode id v
  | inputs, id, v, g => g.setInputs id v
  | policy, id, v, g => g.setUpdatePolicy id v

end Field

/-- One module has the fields given set and is the other one in all else. A map stays a map and a
store stays a store. -/
structure Sets (fields : List (Field × Json)) (m m' : Module) : Prop where
  given : ∀ e ∈ fields, e.1.Holds e.2 m'
  rest : ∀ field, field ∉ fields.map (·.1) → field.Same m m'
  name : m'.name = m.name
  editing : m'.editing = m.editing
  isMap : m'.kind = .map ↔ m.kind = .map

theorem Sets.cons {field : Field} {v : Json} {fields : List (Field × Json)} {m m₁ m₂ : Module}
    (h : Sets [(field, v)] m m₁) (h' : Sets fields m₁ m₂) (hnew : field ∉ fields.map (·.1)) :
    Sets ((field, v) :: fields) m m₂ where
  given := by
    simp only [List.forall_mem_cons]
    exact ⟨(h.given _ List.mem_cons_self).of_same (h'.rest field hnew), h'.given⟩
  rest other hother := by
    simp only [List.map_cons, List.mem_cons, not_or] at hother
    exact (h.rest other (by simpa using hother.1)).trans (h'.rest other hother.2)
  name := h'.name.trans h.name
  editing := h'.editing.trans h.editing
  isMap := h'.isMap.trans h.isMap

end Module

open BlockWorkbench.Module (Field)

namespace Graph

/-- One graph is the other with a module in the place of the one under an id. -/
structure Replaced (g : Graph) (id : Scalar) (m m' : Module) (g' : Graph) : Prop where
  found : g.get? id = some m
  holds : g'.get? id = some m'
  entries : ∃ front key back, (∀ e ∈ front, e.1.same id = false) ∧ key.same id = true ∧
    g.entries = front ++ (key, m) :: back ∧ g'.entries = front ++ (key, m') :: back
  next : g'.next = g.next

/-- To put a module under an id that is found replaces the one that has it. -/
theorem replaced_iff {g g' : Graph} {id : Scalar} {m m' : Module} :
    g.Replaced id m m' g' ↔ g.get? id = some m ∧ g' = g.put id m' := by
  constructor
  · rintro ⟨hm, -, ⟨front, key, back, hfront, hkey, hg, hg'⟩, hnext⟩
    have hput : Json.setEntry (front ++ (key, m) :: back) id m' = front ++ (key, m') :: back :=
      Json.setEntry_append hfront hkey m'
    obtain ⟨entries, next⟩ := g'
    simp_all [put]
  · rintro ⟨hm, rfl⟩
    obtain ⟨front, key, m₀, back, hg, hkey, hfront⟩ | hnone :=
      Json.find?_same_cases g.entries id
    · have hput : (g.put id m').entries = front ++ (key, m') :: back := by
        simp [put, hg, Json.setEntry_append hfront hkey]
      cases hm.symm.trans (get?_of_entries hg hfront hkey)
      exact ⟨hm, get?_of_entries hput hfront hkey, ⟨front, key, back, hfront, hkey, hg, hput⟩, rfl⟩
    · have hnot : g.entries.find? (fun e => e.1.same id) = none :=
        List.find?_eq_none.mpr fun e he => by simp [hnone e he]
      simp [get?, hnot] at hm

theorem Replaced.trans {g g₁ g₂ : Graph} {id : Scalar} {m m₁ m₂ m₁' : Module}
    (h : g.Replaced id m m₁ g₁) (h' : g₁.Replaced id m₁' m₂ g₂) :
    m₁' = m₁ ∧ g.Replaced id m m₂ g₂ := by
  obtain ⟨front, key, back, hfront, hkey, hg, hg₁⟩ := h.entries
  cases h.holds.symm.trans h'.found
  obtain ⟨-, rfl⟩ := replaced_iff.mp h'
  have hg₂ : (g₁.put id m₂).entries = front ++ (key, m₂) :: back := by
    simp [put, hg₁, Json.setEntry_append hfront hkey]
  exact ⟨rfl, h.found, h'.holds, ⟨front, key, back, hfront, hkey, hg, hg₂⟩, h'.next.trans h.next⟩

/-- The graph after an update: the same one if nothing is given, and one with the given fields set
in the module under the id otherwise. -/
def Updates (g : Graph) (n : Int) (fields : List (Field × Json)) (g' : Graph) : Prop :=
  (fields = [] ∧ g' = g) ∨ ∃ m m', g.Replaced (.int n) m m' g' ∧ Module.Sets fields m m'

/-- Where nothing is given, nothing changes. -/
theorem updates_nil {g g' : Graph} {n : Int} (h : g.Updates n [] g') : g' = g := by
  obtain ⟨-, hg'⟩ | ⟨m, m', hg', hm⟩ := h
  · exact hg'
  · have hcode : m'.code = m.code := hm.rest .code (by simp)
    have hinputs : m'.inputs = m.inputs := hm.rest .inputs (by simp)
    have hkind : m'.kind = m.kind := hm.rest .policy (by simp)
    have hsame : m' = m := by
      have hname := hm.name
      have hediting := hm.editing
      cases m
      cases m'
      simp_all
    obtain ⟨front, key, back, -, -, hg, hentries⟩ := hg'.entries
    have hnext := hg'.next
    cases g
    cases g'
    simp_all

theorem modify_eq_ok {g g' : Graph} {n : Int} {f : Module → Except Fault Module}
    (h : g.modify (.int n) f = .ok g') :
    ∃ m m', f m = .ok m' ∧ g.Replaced (.int n) m m' g' := by
  obtain ⟨e, hlookup, h⟩ := bind_eq_ok.mp h
  obtain ⟨m', hm', h⟩ := bind_eq_ok.mp h
  cases h
  obtain ⟨key, hkey, hlookup⟩ := bind_eq_ok.mp hlookup
  cases hkey
  split at hlookup
  · rename_i hfind
    cases hlookup
    have hsame : e.1.same (.int n) = true := by simpa using List.find?_some hfind
    have hmem : e.1 ∈ g.entries.map (·.1) :=
      List.mem_map_of_mem (List.mem_of_find?_eq_some hfind)
    have hput : g.put e.1 m' = g.put (.int n) m' := by
      simp only [put, Json.setEntry_congr hsame hmem]
    exact ⟨e.2, m', hm', replaced_iff.mpr ⟨by simp [get?, hfind], hput⟩⟩
  · cases hlookup

/-- An operation that sets a field does so, and does nothing else. -/
theorem updates_of_change {g g' : Graph} {n : Int} {field : Field} {v : Json}
    (h : field.change (.int n) v g = .ok g') : g.Updates n [(field, v)] g' := by
  refine .inr ?_
  cases field with
  | code =>
      simp only [Field.change, setCode] at h
      obtain ⟨m, m', hm, hg'⟩ := modify_eq_ok h
      cases hm
      refine ⟨m, _, hg', ?_, ?_, rfl, rfl, .rfl⟩
      · simp [Field.Holds]
      · rintro (_ | _ | _) hother <;> first | rfl | simp at hother
  | inputs =>
      obtain ⟨items, hitems, h⟩ := bind_eq_ok.mp h
      obtain ⟨m, m', hm, hg'⟩ := modify_eq_ok h
      cases hm
      refine ⟨m, _, hg', ?_, ?_, rfl, rfl, .rfl⟩
      · simpa [Field.Holds] using hitems
      · rintro (_ | _ | _) hother <;> first | rfl | simp at hother
  | policy =>
      simp only [Field.change, setUpdatePolicy] at h
      obtain ⟨m, m', hm, hg'⟩ := modify_eq_ok h
      split at hm
      · cases hm
      · rename_i old hold
        obtain ⟨new, hnew, hm⟩ := bind_eq_ok.mp hm
        cases hm
        refine ⟨m, _, hg', ?_, ?_, rfl, rfl, by simp [hold]⟩
        · simpa [Field.Holds] using hnew
        · rintro (_ | _ | _) hother <;> first | rfl | simp at hother

theorem Updates.cons {g g₁ g₂ : Graph} {n : Int} {field : Field} {v : Json}
    {fields : List (Field × Json)} (h : g.Updates n [(field, v)] g₁) (h' : g₁.Updates n fields g₂)
    (hnew : field ∉ fields.map (·.1)) : g.Updates n ((field, v) :: fields) g₂ := by
  obtain ⟨hnil, -⟩ | ⟨m, m₁, hg₁, hm₁⟩ := h
  · cases hnil
  · obtain ⟨rfl, rfl⟩ | ⟨m₁', m₂, hg₂, hm₂⟩ := h'
    · exact .inr ⟨m, m₁, hg₁, hm₁⟩
    · obtain ⟨rfl, hg⟩ := hg₁.trans hg₂
      exact .inr ⟨m, m₂, hg, hm₁.cons hm₂ hnew⟩

end Graph

namespace Editor

/-- The fields that an update gives, in the order in which they are set. -/
def givenFields (code inputs policy : Json) : List (Field × Json) :=
  [(Field.code, code), (Field.inputs, inputs), (Field.policy, policy)].filterMap fun (field, v) =>
    (given? v).map (field, ·)

theorem givenFields_nodup (code inputs policy : Json) :
    ((givenFields code inputs policy).map (·.1)).Nodup := by
  cases hcode : given? code <;> cases hinputs : given? inputs <;> cases hpolicy : given? policy <;>
    simp [givenFields, hcode, hinputs, hpolicy]

/-- Sets the field of a module, unless what was done before has failed. -/
def setField (n : Int) (before : Reply Unit) (given : Field × Json) : Reply Unit :=
  match before.result with
  | .ok () =>
    let after := before.editor.change (given.1.change (.int n) given.2)
    { after with records := before.records ++ after.records }
  | .error _ => before

theorem unlessNull_eq (n : Int) (field : Field) (v : Json) (before : Reply Unit) :
    Api.unlessNull v (fun e v => e.change (field.change (.int n) v)) before =
      ((given? v).map (field, ·)).toList.foldl (setField n) before := by
  cases hgiven : given? v <;> cases hbefore : before.result <;>
    simp [Api.unlessNull, setField, hgiven, hbefore]

theorem updateModule_eq (e : Editor) (n : Int) (code inputs policy : Json) :
    Api.updateModule e n code inputs policy =
      (givenFields code inputs policy).foldl (setField n) { result := .ok (), editor := e } := by
  have hgiven : givenFields code inputs policy =
      ((given? code).map (Field.code, ·)).toList ++ ((given? inputs).map (Field.inputs, ·)).toList ++
        ((given? policy).map (Field.policy, ·)).toList := by
    simp only [givenFields, List.filterMap_cons, List.filterMap_nil]
    cases given? code <;> cases given? inputs <;> cases given? policy <;> rfl
  rw [hgiven, List.foldl_append, List.foldl_append, ← unlessNull_eq, ← unlessNull_eq,
    ← unlessNull_eq]
  rfl

theorem change_cases (e : Editor) (edit : Graph → Except Fault Graph) :
    (∃ g', edit e.graph = .ok g' ∧
      e.change edit = { result := .ok (), editor := { e with graph := g' } }) ∨
    ∃ f, (e.activity.ownerAlive = false ∧ f = .unanswered ∨ edit e.graph = .error f) ∧
      e.change edit = { result := .error f, editor := e } := by
  cases halive : e.activity.ownerAlive with
  | false => exact .inr ⟨_, .inl ⟨rfl, rfl⟩, by simp [change, ask, halive]⟩
  | true =>
      cases hedit : edit e.graph with
      | ok g' => exact .inl ⟨g', rfl, by simp [change, ask, halive, hedit]⟩
      | error f => exact .inr ⟨f, .inr rfl, by simp [change, ask, halive, hedit]⟩

theorem foldl_setField_of_error (n : Int) (fields : List (Field × Json)) (f : Fault) (e : Editor) :
    fields.foldl (setField n) { result := .error f, editor := e } =
      { result := .error f, editor := e } := by
  induction fields with
  | nil => rfl
  | cons given rest ih => exact ih

/-- Different fields are all set, or those before the first one that cannot be set. -/
theorem foldl_setField (e : Editor) (n : Int) {fields : List (Field × Json)}
    (hfields : (fields.map (·.1)).Nodup) :
    let reply := fields.foldl (setField n) { result := .ok (), editor := e }
    ∃ g', reply.editor = { e with graph := g' } ∧
      (reply.result = .ok () ∧ e.graph.Updates n fields g' ∨
      ∃ f done field v rest, reply.result = .error f ∧ fields = done ++ (field, v) :: rest ∧
        e.graph.Updates n done g' ∧
        (e.activity.ownerAlive = false ∧ f = .unanswered ∨
          field.change (.int n) v g' = .error f)) := by
  induction fields generalizing e with
  | nil => exact ⟨e.graph, rfl, .inl ⟨rfl, .inl ⟨rfl, rfl⟩⟩⟩
  | cons given rest ih =>
      obtain ⟨field, v⟩ := given
      obtain ⟨hnew, hrest⟩ := List.nodup_cons.mp hfields
      obtain ⟨g₁, hg₁, hchange⟩ | ⟨f, hf, hchange⟩ :=
        e.change_cases (field.change (.int n) v)
      · -- the other fields are set in the graph that this one leaves, and none of them sets it again
        have hone := Graph.updates_of_change hg₁
        simp only [List.foldl_cons, setField, hchange, List.append_nil]
        obtain ⟨g', heditor, ⟨hresult, hg'⟩ | ⟨f, done, other, w, after, hresult, rfl, hg', hf⟩⟩ :=
          ih { e with graph := g₁ } hrest
        · exact ⟨g', heditor, .inl ⟨hresult, hone.cons hg' hnew⟩⟩
        · have hdone : field ∉ done.map (·.1) := fun h => hnew (by simp_all)
          exact ⟨g', heditor, .inr ⟨f, (field, v) :: done, other, w, after, hresult, rfl,
            hone.cons hg' hdone, hf⟩⟩
      · simp only [List.foldl_cons, setField, hchange, List.append_nil, foldl_setField_of_error]
        exact ⟨e.graph, rfl, .inr ⟨f, [], field, v, rest, rfl, rfl, .inl ⟨rfl, rfl⟩, hf⟩⟩

end Editor

namespace Api

/-- An update sets the fields that are given, in the order of code, inputs and policy, and fails at
the first one that cannot be set. What it leaves of the graph is the former one with the fields set
that come before, all of them if none fails. -/
theorem update_sets_fields_until_failure {api : Api} {e : Editor} (he : api.editor = some e)
    (id code inputs policy : Json) :
    let reply := api.perform (.updateModule id code inputs policy)
    let fields := Editor.givenFields code inputs policy
    ∃ g', reply.api.editor = some { e with graph := g' } ∧
      ((∃ n, id.toInt = .ok n ∧ reply.result = .ok (.bool true) ∧ e.graph.Updates n fields g') ∨
      ∃ f, reply.result = .error f ∧
        (id.toInt = .error f ∧ g' = e.graph ∨
        ∃ n done field v rest, id.toInt = .ok n ∧ fields = done ++ (field, v) :: rest ∧
          e.graph.Updates n done g' ∧
          (e.activity.ownerAlive = false ∧ f = .unanswered ∨
            field.change (.int n) v g' = .error f))) := by
  intro reply fields
  cases hid : id.toInt with
  | error f =>
      have hreply : reply.result = .error f ∧ reply.api.editor = some e := by
        simp [reply, perform, he, performWith, settled, withArguments, hid]
      exact ⟨e.graph, hreply.2, .inr ⟨f, hreply.1, .inl ⟨rfl, rfl⟩⟩⟩
  | ok n =>
      have hreply : reply.result = ((updateModule e n code inputs policy).result >>= done) ∧
          reply.api.editor = some (updateModule e n code inputs policy).editor := by
        simp [reply, perform, he, performWith, settled, withArguments, hid]
      rw [Editor.updateModule_eq] at hreply
      obtain ⟨g', heditor, ⟨hresult, hg'⟩ | ⟨f, done, field, v, rest, hresult, hgiven, hg', hf⟩⟩ :=
        e.foldl_setField n (Editor.givenFields_nodup code inputs policy)
      · refine ⟨g', by rw [hreply.2, heditor], .inl ⟨n, rfl, ?_, hg'⟩⟩
        rw [hreply.1, hresult]
        rfl
      · refine ⟨g', by rw [hreply.2, heditor], .inr ⟨f, ?_, .inr
          ⟨n, done, field, v, rest, rfl, hgiven, hg', hf⟩⟩⟩
        rw [hreply.1, hresult]
        rfl

/-- A session with the default settings. -/
def fresh : Api := (({} : Api).begin (some (.object []))).2

/-- The code of a store is set before its policy is found to be none. -/
theorem update_sets_code_until_bad_policy :
    ∃ e e', fresh.editor = some e ∧
      let reply := fresh.perform (.updateModule (.str " 2 ") (.str "x") .null (.str "add"))
      reply.result = .error (.badPolicy (.str "add")) ∧ reply.api.editor = some e' ∧
        e.graph.Updates 2 [(.code, .str "x")] e'.graph := by
  have he : fresh.editor = some (fresh.editor.get rfl) := rfl
  have hfails : (fresh.perform (.updateModule (.str " 2 ") (.str "x") .null (.str "add"))).result =
      .error (.badPolicy (.str "add")) := by rfl
  have hgiven : Editor.givenFields (.str "x") .null (.str "add") =
      [(.code, .str "x"), (.policy, .str "add")] := rfl
  have hid : (Json.str " 2 ").toInt = .ok 2 := by rfl
  obtain ⟨g', heditor, ⟨n, -, hok, -⟩ | ⟨f, hf, ⟨hbad, -⟩ |
      ⟨n, done, field, v, rest, hn, hfields, hg', hstop⟩⟩⟩ :=
    update_sets_fields_until_failure he (.str " 2 ") (.str "x") .null (.str "add")
  · cases hok.symm.trans hfails
  · cases hbad.symm.trans hid
  · cases hn.symm.trans hid
    cases hf.symm.trans hfails
    rw [hgiven] at hfields
    obtain ⟨-, hf⟩ | hstop := hstop
    · cases hf
    · -- the code can be set, so the policy is the first field that cannot
      match done with
      | [] =>
          cases hfields
          rw [Graph.updates_nil hg'] at hstop
          cases hstop
      | [first] =>
          cases hfields
          exact ⟨_, _, he, hfails, heditor, hg'⟩
      | first :: second :: more => simp at hfields

/-- Inputs that cannot be run through are refused when the code is already another one. -/
theorem failed_update_changes_code :
    let reply := fresh.perform (.updateModule (.int 1) (.str "x") (.int 5) .null)
    reply.result = .error (.notIterable "int") ∧
      ((fresh.editor.bind (·.graph.get? (.int 1))).map (·.code)) =
        some (.str "def foo(BLOCK):\n    return BLOCK[\"number\"]\n") ∧
      ((reply.api.editor.bind (·.graph.get? (.int 1))).map (·.code)) = some (.str "x") :=
  ⟨rfl, rfl, rfl⟩

end Api

end BlockWorkbench
