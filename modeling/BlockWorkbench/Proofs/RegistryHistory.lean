import BlockWorkbench.Proofs.Manifest
import BlockWorkbench.Script.Engine

/-!
The registry as its calls leave it. A registration either is complete, and then takes the place of
the one of the same name or the last place, or raises and changes nothing; so the registry holds the
last registration of each name since it was reset, in the order of the first ones.
-/

namespace BlockWorkbench.Script

/-! ### What a registration declares -/

def InputKind.text : InputKind → String
  | source => "source"
  | module kind => kind.text

/-- A dictionary as an input: its kind is one of the three, and unless it is the block it has a
truthy name. -/
structure DeclaresInput (s : Store) (v : Value) (input : RegisteredInput) : Prop where
  dict : ∃ a, v = .dict a ∧ input.entries = s.entries a
  kind : namedEntry input.entries "kind" = .str (.ofString input.kind.text)
  name : input.name = namedEntry input.entries "name"
  truthy : input.kind ≠ .source → s.isTruthy input.name = true

/-- The items under the inputs of a registration; none if nothing is said of them. -/
def inputItems (s : Store) (entries : List (Value × Value)) : Except RuntimeFault (List Value) :=
  match valueAt? entries (.str (.ofString "inputs")) with
  | some v => s.elements v
  | none => .ok []

/-- The entries of a dictionary as a registration: its name and its handler are texts and not
empty, and each of its items is an input. -/
structure DeclaresEntries (s : Store) (entries : List (Value × Value)) (m : Registration) :
    Prop where
  name : namedEntry entries "name" = .str m.name
  name_ne : m.name ≠ []
  handler : namedEntry entries "handler" = .str m.handler
  handler_ne : m.handler ≠ []
  inputs : ∃ items, inputItems s entries = .ok items ∧
    List.Forall₂ (DeclaresInput s) items m.inputs

/-- The value `spec` declares the module `m` of a kind. -/
def Declares (s : Store) (kind : RegisteredKind) (spec : Value) (m : Registration) : Prop :=
  m.kind = kind ∧ ∃ a, spec = .dict a ∧ DeclaresEntries s (s.entries a) m

theorem InputKind.parse?_eq_some_iff {v : Value} {kind : InputKind} :
    InputKind.parse? v = some kind ↔ v = .str (.ofString kind.text) := by
  constructor
  · intro h
    unfold parse? at h
    split at h
    · split at h
      · cases h
        simp_all [text]
      · split at h
        · cases h
          simp_all [text, RegisteredKind.text]
        · split at h
          · cases h
            simp_all [text, RegisteredKind.text]
          · cases h
    · cases h
  · rintro rfl
    obtain _ | _ | _ := kind <;> decide

theorem readInput_eq_ok_iff {s : Store} {module : Points} {v : Value} {input : RegisteredInput} :
    readInput s module v = .ok input ↔ DeclaresInput s v input := by
  constructor
  · intro h
    unfold readInput at h
    split at h
    · rename_i a
      simp only at h
      split at h
      · simp [bind_eq_ok] at h
      · rename_i hkind
        cases h
        exact ⟨⟨a, rfl, rfl⟩, InputKind.parse?_eq_some_iff.mp hkind, rfl, by simp⟩
      · rename_i kind hkind
        split at h
        · cases h
          exact ⟨⟨a, rfl, rfl⟩, InputKind.parse?_eq_some_iff.mp hkind, rfl, fun _ => ‹_›⟩
        · cases h
    · simp [bind_eq_ok] at h
  · rintro ⟨⟨a, rfl, hentries⟩, hkind, hname, htruthy⟩
    obtain ⟨kind, name, entries⟩ := input
    simp only at hentries hkind hname htruthy
    subst hentries hname
    have hparse := InputKind.parse?_eq_some_iff.mpr hkind
    cases kind with
    | source => simp [readInput, hparse]
    | module kind => simp [readInput, hparse, htruthy (by simp)]

theorem readInputs_eq_ok_iff {s : Store} {module : Points} {vs : List Value}
    {inputs : List RegisteredInput} :
    readInputs s module vs = .ok inputs ↔ List.Forall₂ (DeclaresInput s) vs inputs := by
  induction vs generalizing inputs with
  | nil => simp [readInputs, eq_comm]
  | cons v rest ih =>
      simp only [readInputs, bind_eq_ok, readInput_eq_ok_iff, ih, List.forall₂_cons_left_iff]
      simp [eq_comm]

/-- The inputs are read behind a name and a handler. -/
theorem readRegistration_dict {s : Store} (kind : RegisteredKind) {a : Address}
    {name handler : Points} (hname : namedEntry (s.entries a) "name" = .str name)
    (hname_ne : name ≠ []) (hhandler : namedEntry (s.entries a) "handler" = .str handler)
    (hhandler_ne : handler ≠ []) :
    readRegistration s kind (.dict a) = do
      let items ← inputItems s (s.entries a)
      return ⟨kind, name, handler, ← readInputs s name items⟩ := by
  simp only [readRegistration, hname, if_neg hname_ne, hhandler, if_neg hhandler_ne, pure_eq_ok,
    ok_bind, inputItems]
  cases valueAt? (s.entries a) (.str (.ofString "inputs")) <;> rfl

/-- Only a dictionary with a name and a handler is read. -/
theorem dict_of_readRegistration {s : Store} {kind : RegisteredKind} {spec : Value}
    {m : Registration} (h : readRegistration s kind spec = .ok m) :
    ∃ a name handler, spec = .dict a ∧
      (namedEntry (s.entries a) "name" = .str name ∧ name ≠ []) ∧
      namedEntry (s.entries a) "handler" = .str handler ∧ handler ≠ [] := by
  unfold readRegistration at h
  split at h
  · rename_i a
    simp only at h
    split at h
    · rename_i name hname
      split at h
      · cases h
      · rename_i hname_ne
        simp only [pure_eq_ok, ok_bind] at h
        split at h
        · rename_i handler hhandler
          split at h
          · cases h
          · exact ⟨a, name, handler, rfl, ⟨hname, hname_ne⟩, hhandler, ‹_›⟩
        · cases h
    · cases h
  · cases h

/-- What is read is what is declared, and nothing else is read. -/
theorem readRegistration_eq_ok_iff {s : Store} {kind : RegisteredKind} {spec : Value}
    {m : Registration} : readRegistration s kind spec = .ok m ↔ Declares s kind spec m := by
  constructor
  · intro h
    obtain ⟨a, name, handler, rfl, ⟨hname, hname_ne⟩, hhandler, hhandler_ne⟩ :=
      dict_of_readRegistration h
    rw [readRegistration_dict kind hname hname_ne hhandler hhandler_ne] at h
    obtain ⟨items, hitems, h⟩ := bind_eq_ok.mp h
    obtain ⟨inputs, hinputs, h⟩ := bind_eq_ok.mp h
    cases h
    exact ⟨rfl, a, rfl, hname, hname_ne, hhandler, hhandler_ne, items, hitems,
      readInputs_eq_ok_iff.mp hinputs⟩
  · rintro ⟨rfl, a, rfl, hname, hname_ne, hhandler, hhandler_ne, items, hitems, hinputs⟩
    rw [readRegistration_dict m.kind hname hname_ne hhandler hhandler_ne, hitems, ok_bind,
      readInputs_eq_ok_iff.mpr hinputs]
    rfl

/-! ### Calls -/

/-- What a call may change the registry by. -/
inductive RegistryRequest where
  | register (kind : RegisteredKind) (spec : Value)
  | reset

/-- A request, and the machine on which it is carried out but for the registry. -/
structure RegistryCall where
  around : Machine
  request : RegistryRequest

/-- The function that registers modules of a kind. -/
def RegisteredKind.builtin : RegisteredKind → Builtin
  | map => .addMap
  | store => .addStore

namespace RegistryCall

/-- Carries out a call on a registry. -/
def carryOut (c : RegistryCall) (r : Registry) : Outcome Value × Machine :=
  match c.request with
  | .register kind spec => kind.builtin.call [spec] { c.around with registry := r }
  | .reset => (.value .none, { c.around with registry := r }.clearRegistry)

/-- The registry that calls lead to from an empty one. -/
def after (calls : List RegistryCall) : Registry :=
  calls.foldl (fun r c => (c.carryOut r).2.registry) []

/-- Whether a call resets the registry. -/
def isReset (c : RegistryCall) : Bool :=
  match c.request with
  | .reset => true
  | .register .. => false

/-- The call registers the module `m`, as its specification declares it at that time. -/
def Registers (c : RegistryCall) (m : Registration) : Prop :=
  ∃ kind spec, c.request = .register kind spec ∧ Declares c.around.store kind spec m

/-- The module that a call registers, if it succeeds. -/
def registration? (c : RegistryCall) : Option Registration :=
  match c.request with
  | .register kind spec => (readRegistration c.around.store kind spec).toOption
  | .reset => none

theorem registration?_eq_some_iff {c : RegistryCall} {m : Registration} :
    c.registration? = some m ↔ c.Registers m := by
  obtain ⟨around, request⟩ := c
  cases request with
  | register kind spec =>
      have hread : (readRegistration around.store kind spec).toOption = some m ↔
          readRegistration around.store kind spec = .ok m := by
        cases readRegistration around.store kind spec <;> simp [Except.toOption]
      rw [registration?, hread, readRegistration_eq_ok_iff]
      constructor
      · exact fun h => ⟨kind, spec, rfl, h⟩
      · rintro ⟨_, _, hrequest, h⟩
        cases hrequest
        exact h
  | reset => simp [registration?, Registers]

theorem Registers.unique {c : RegistryCall} {m n : Registration} (hm : c.Registers m)
    (hn : c.Registers n) : m = n := by
  rw [← registration?_eq_some_iff] at hm hn
  exact Option.some.inj (hm.symm.trans hn)

/-- A call that registers puts the module in the registry, any other leaves it or resets it. -/
theorem carryOut_registers {c : RegistryCall} {m : Registration} (h : c.Registers m)
    (r : Registry) :
    c.carryOut r = (.value .none, { c.around with registry := r.put m }) := by
  obtain ⟨kind, spec, hrequest, hdeclares⟩ := h
  have hread := readRegistration_eq_ok_iff.mpr hdeclares
  cases kind <;>
    simp [carryOut, hrequest, RegisteredKind.builtin, Builtin.call, callRegister, registerModule,
      Registry.register, hread]

theorem carryOut_reset {c : RegistryCall} (h : c.request = .reset) (r : Registry) :
    c.carryOut r = (.value .none, { c.around with registry := [] }) := by
  simp [carryOut, h, Machine.clearRegistry]

/-- A registration that is not complete raises and changes nothing. -/
theorem carryOut_refused {c : RegistryCall} (hreset : c.request ≠ .reset)
    (h : ∀ m, ¬ c.Registers m) (r : Registry) :
    ∃ f, c.carryOut r = (.raised (.fault f), { c.around with registry := r }) := by
  obtain ⟨around, request⟩ := c
  cases request with
  | reset => exact absurd rfl hreset
  | register kind spec =>
      cases hread : readRegistration around.store kind spec with
      | ok m => exact absurd ⟨kind, spec, rfl, readRegistration_eq_ok_iff.mp hread⟩ (h m)
      | error f =>
          refine ⟨f, ?_⟩
          cases kind <;>
            simp [carryOut, RegisteredKind.builtin, Builtin.call, callRegister, registerModule,
              Registry.register, hread]

/-- A call resets the registry, registers a module or is refused. -/
theorem cases (c : RegistryCall) :
    c.request = .reset ∨ (∃ m, c.Registers m) ∨ c.request ≠ .reset ∧ ∀ m, ¬ c.Registers m := by
  by_cases hreset : c.request = .reset
  · exact .inl hreset
  · by_cases h : ∃ m, c.Registers m
    · exact .inr (.inl h)
    · exact .inr (.inr ⟨hreset, not_exists.mp h⟩)

end RegistryCall

/-! ### Histories -/

namespace Registry

theorem names_put (r : Registry) (m : Registration) :
    (r.put m).map (·.name) =
      if m.name ∈ r.map (·.name) then r.map (·.name) else r.map (·.name) ++ [m.name] := by
  induction r with
  | nil => simp [put]
  | cons n rest ih =>
      by_cases hname : n.name = m.name
      · simp [put, hname]
      · rw [put, if_neg hname, List.map_cons, ih, List.map_cons]
        by_cases hmem : m.name ∈ rest.map (·.name)
        · rw [if_pos hmem, if_pos (List.mem_cons_of_mem _ hmem)]
        · rw [if_neg hmem, if_neg (by simpa [Ne.symm hname] using hmem), List.cons_append]

/-- A registration replaces the one of its name and leaves all others. -/
theorem mem_put_iff {r : Registry} (hr : (r.map (·.name)).Nodup) {m n : Registration} :
    n ∈ r.put m ↔ n = m ∨ n ∈ r ∧ n.name ≠ m.name := by
  induction r with
  | nil => simp [put]
  | cons first rest ih =>
      rw [List.map_cons, List.nodup_cons] at hr
      by_cases hname : first.name = m.name
      · have hother : ∀ n' ∈ rest, n'.name ≠ m.name := fun n' hn' h =>
          hr.1 (List.mem_map.mpr ⟨n', hn', h.trans hname.symm⟩)
        rw [put, if_pos hname, List.mem_cons, List.mem_cons]
        constructor
        · rintro (rfl | hn)
          · exact .inl rfl
          · exact .inr ⟨.inr hn, hother n hn⟩
        · rintro (rfl | ⟨rfl | hn, hne⟩)
          · exact .inl rfl
          · exact absurd hname hne
          · exact .inr hn
      · rw [put, if_neg hname, List.mem_cons, List.mem_cons, ih hr.2]
        constructor
        · rintro (rfl | rfl | ⟨hn, hne⟩)
          · exact .inr ⟨.inl rfl, hname⟩
          · exact .inl rfl
          · exact .inr ⟨.inr hn, hne⟩
        · rintro (rfl | ⟨rfl | hn, hne⟩)
          · exact .inr (.inl rfl)
          · exact .inl rfl
          · exact .inr (.inr ⟨hn, hne⟩)

end Registry

namespace RegistryCall

theorem after_append (calls : List RegistryCall) (c : RegistryCall) :
    after (calls ++ [c]) = (c.carryOut (after calls)).2.registry := by
  simp [after]

/-- The names of the modules registered since the registry was last reset, call by call. -/
def namesSinceReset (calls : List RegistryCall) : List Points :=
  (calls.rtakeWhile fun c => !c.isReset).filterMap fun c => c.registration?.map (·.name)

/-- The module `m` is what the last call to register its name registered, and the registry was not
reset behind that call. -/
def LastOf (calls : List RegistryCall) (m : Registration) : Prop :=
  ∃ earlier c later, calls = earlier ++ c :: later ∧ c.Registers m ∧
    ∀ c' ∈ later, c'.request ≠ .reset ∧ ∀ n, c'.Registers n → n.name ≠ m.name

theorem lastOf_append {calls : List RegistryCall} {c : RegistryCall} {m : Registration} :
    LastOf (calls ++ [c]) m ↔ c.Registers m ∨
      LastOf calls m ∧ c.request ≠ .reset ∧ ∀ n, c.Registers n → n.name ≠ m.name := by
  constructor
  · rintro ⟨earlier, c₀, later, hcalls, hregisters, hlater⟩
    obtain rfl | ⟨later, last, rfl⟩ := later.eq_nil_or_concat
    · obtain ⟨-, hlast⟩ := List.append_inj' hcalls rfl
      cases hlast
      exact .inl hregisters
    · rw [List.concat_eq_append] at hcalls hlater
      rw [← List.cons_append, ← List.append_assoc] at hcalls
      obtain ⟨rfl, hlast⟩ := List.append_inj' hcalls rfl
      cases hlast
      simp only [List.forall_mem_append, List.forall_mem_singleton] at hlater
      exact .inr ⟨⟨earlier, c₀, later, rfl, hregisters, hlater.1⟩, hlater.2⟩
  · rintro (h | ⟨⟨earlier, c₀, later, rfl, hregisters, hlater⟩, hc⟩)
    · exact ⟨calls, c, [], rfl, h, by simp⟩
    · refine ⟨earlier, c₀, later ++ [c], by simp, hregisters, ?_⟩
      simp only [List.forall_mem_append, List.forall_mem_singleton]
      exact ⟨hlater, hc⟩

theorem namesSinceReset_append (calls : List RegistryCall) (c : RegistryCall) :
    namesSinceReset (calls ++ [c]) = if c.isReset then [] else
      namesSinceReset calls ++ (c.registration?.map (·.name)).toList := by
  rw [namesSinceReset, List.rtakeWhile_concat]
  cases c.isReset with
  | true => simp
  | false =>
      cases h : c.registration? with
      | none => simp [namesSinceReset, h]
      | some m => simp [namesSinceReset, h]

/-- The names stand in the order in which they were first registered. -/
theorem names_after (calls : List RegistryCall) :
    (after calls).map (·.name) = (namesSinceReset calls).eraseDups := by
  induction calls using List.reverseRecOn with
  | nil => rfl
  | append_singleton calls c ih =>
      rw [after_append, namesSinceReset_append]
      obtain hreset | ⟨m, hm⟩ | ⟨hreset, hnone⟩ := c.cases
      · have hc : c.isReset = true := by simp [isReset, hreset]
        simp [carryOut_reset hreset, hc]
      · have hc : c.isReset = false := by
          obtain ⟨kind, spec, hrequest, -⟩ := hm
          simp [isReset, hrequest]
        rw [carryOut_registers hm, registration?_eq_some_iff.mpr hm, hc]
        simp only [Registry.names_put, ih, List.mem_eraseDups, Option.map_some,
          Option.toList_some, Bool.false_eq_true, if_false, List.eraseDups_append]
        by_cases hmem : m.name ∈ namesSinceReset calls <;>
          simp [List.cons_removeAll, List.eraseDups_cons, hmem]
      · have hc : c.isReset = false := by
          cases h : c.request <;> simp_all [isReset]
        have hrefused : c.registration? = none := by
          rw [Option.eq_none_iff_forall_ne_some]
          exact fun m hm => hnone m (registration?_eq_some_iff.mp hm)
        obtain ⟨f, hf⟩ := carryOut_refused hreset hnone (after calls)
        simp [hf, hc, hrefused, ih]

theorem nodup_after (calls : List RegistryCall) : ((after calls).map (·.name)).Nodup := by
  induction calls using List.reverseRecOn with
  | nil => exact List.nodup_nil
  | append_singleton calls c ih =>
      rw [after_append]
      obtain hreset | ⟨m, hm⟩ | ⟨hreset, hnone⟩ := c.cases
      · rw [carryOut_reset hreset]
        exact List.nodup_nil
      · rw [carryOut_registers hm]
        exact Registry.nodup_put ih m
      · obtain ⟨f, hf⟩ := carryOut_refused hreset hnone (after calls)
        rwa [hf]

/-- The registry holds what was registered last under each name. -/
theorem mem_after_iff {calls : List RegistryCall} {m : Registration} :
    m ∈ after calls ↔ LastOf calls m := by
  induction calls using List.reverseRecOn with
  | nil => simp [after, LastOf]
  | append_singleton calls c ih =>
      rw [after_append, lastOf_append, ← ih]
      obtain hreset | ⟨n, hn⟩ | ⟨hreset, hnone⟩ := c.cases
      · have hnone : ¬ c.Registers m := by simp [Registers, hreset]
        simp [carryOut_reset hreset, hreset, hnone]
      · have hreset : c.request ≠ .reset := by
          obtain ⟨kind, spec, hrequest, -⟩ := hn
          simp [hrequest]
        have hsame : ∀ m, c.Registers m ↔ m = n := fun m =>
          ⟨fun hm => hm.unique hn, fun hm => hm ▸ hn⟩
        rw [carryOut_registers hn, Registry.mem_put_iff (nodup_after calls)]
        simp [hsame, hreset, eq_comm]
      · obtain ⟨f, hf⟩ := carryOut_refused hreset hnone (after calls)
        simp [hf, hnone, hreset]

theorem find?_after_iff {calls : List RegistryCall} {name : Points} {m : Registration} :
    (after calls).find? name = some m ↔ m.name = name ∧ LastOf calls m := by
  rw [← mem_after_iff]
  constructor
  · exact fun h => (Registry.find?_eq_some h).symm
  · rintro ⟨rfl, hm⟩
    exact Registry.find?_of_mem (nodup_after calls) hm

/-- After any calls the registry holds, under each name, what was last registered under it since the
registry was reset, in the order in which the names came first. All of it was declared when it was
registered: a handler, and inputs of known kinds with names. A call that raises changes nothing. -/
theorem registry_holds_last_registrations (calls : List RegistryCall) :
    (after calls).map (·.name) = (namesSinceReset calls).eraseDups ∧
    (∀ name m, (after calls).find? name = some m ↔ m.name = name ∧ LastOf calls m) ∧
    (∀ m ∈ after calls, m.handler ≠ [] ∧ ∃ c ∈ calls, c.Registers m ∧
      ∀ input ∈ m.inputs, ∃ v, DeclaresInput c.around.store v input) ∧
    ∀ (c : RegistryCall) (r : Registry),
      (c.request = .reset ∧
        c.carryOut r = (.value .none, { c.around with registry := [] })) ∨
      (∃ m, c.Registers m ∧
        c.carryOut r = (.value .none, { c.around with registry := r.put m })) ∨
      c.request ≠ .reset ∧ (∀ m, ¬ c.Registers m) ∧
        ∃ f, c.carryOut r = (.raised (.fault f), { c.around with registry := r }) := by
  refine ⟨names_after calls, fun _ _ => find?_after_iff, ?_, ?_⟩
  · intro m hm
    obtain ⟨earlier, c, later, rfl, hregisters, -⟩ := mem_after_iff.mp hm
    obtain ⟨kind, spec, -, -, a, -, hdeclares⟩ := id hregisters
    obtain ⟨items, -, hinputs⟩ := hdeclares.inputs
    obtain ⟨hlength, hinputs⟩ := List.forall₂_iff_get.mp hinputs
    refine ⟨hdeclares.handler_ne, c, by simp, hregisters, fun input hinput => ?_⟩
    obtain ⟨i, rfl⟩ := List.mem_iff_get.mp hinput
    exact ⟨_, hinputs i (i.isLt.trans_eq hlength.symm) i.isLt⟩
  · intro c r
    obtain hreset | ⟨m, hm⟩ | ⟨hreset, hnone⟩ := c.cases
    · exact .inl ⟨hreset, carryOut_reset hreset r⟩
    · exact .inr (.inl ⟨m, hm, carryOut_registers hm r⟩)
    · exact .inr (.inr ⟨hreset, hnone, carryOut_refused hreset hnone r⟩)

end RegistryCall

end BlockWorkbench.Script
