import BlockWorkbench.Proofs.Script.Names
import BlockWorkbench.Proofs.Script.Sealing

/-!
Machines on which nothing leads to the dictionary of the predefined names but the reserved name that
it is bound to. The steps that scripts are made of give what is sealed and leave a machine of this
sort, as long as no name in them is reserved.
-/

namespace BlockWorkbench.Script

variable {α β : Type}

/-- Nothing on the machine leads to the dictionary of the predefined names except the name under
which every run binds it, and the dictionary is as it is at the start. -/
structure Machine.Confined (m : Machine) : Prop where
  store : m.store.Sealed
  names : m.names.Serves
  atHand : m.namesAtHand.Serves
  scope : ∀ name v, name ≠ predefinedNames → bound? m.scope name = some v → v.Sealed

theorem Machine.confined_start : Machine.Confined {} where
  store := Store.sealed_default
  names := .inl rfl
  atHand := .inl rfl
  scope := nofun

theorem Machine.Confined.withStore {m : Machine} (h : m.Confined) {s : Store} (hs : s.Sealed) :
    Machine.Confined { m with store := s } :=
  ⟨hs, h.names, h.atHand, h.scope⟩

/-- Whether a value that is given has a property. -/
def Outcome.Gives (P : α → Prop) : Outcome α → Prop
  | .value a => P a
  | .raised _ | .exhausted => True

/-- Run on a confined machine, `x` leaves a confined machine, and what it gives has a property. -/
def Run.Confines (P : α → Prop) (x : Run α) : Prop :=
  ∀ m : Machine, m.Confined → (x m).1.Gives P ∧ (x m).2.Confined

/-! ### Steps -/

section Steps

variable {P : α → Prop} {Q : β → Prop}

theorem Run.Confines.bind {x : Run α} {f : α → Run β} (hx : x.Confines P)
    (hf : ∀ a, P a → (f a).Confines Q) : (x >>= f).Confines Q := by
  intro m hm
  obtain ⟨hgives, hleft⟩ := hx m hm
  change (Run.andThen x f m).1.Gives Q ∧ (Run.andThen x f m).2.Confined
  unfold Run.andThen
  cases hxm : x m with | mk out m' =>
  rw [hxm] at hgives hleft
  cases out with
  | value a => exact hf a hgives m' hleft
  | raised r => exact ⟨trivial, hleft⟩
  | exhausted => exact ⟨trivial, hleft⟩

theorem confines_value {a : α} (h : P a) : (Run.value a).Confines P := fun _ hm => ⟨h, hm⟩

theorem confines_raised (r : Raised) : (Run.raised r : Run α).Confines P :=
  fun _ hm => ⟨trivial, hm⟩

theorem confines_fault (f : RuntimeFault) : (Run.fault f : Run α).Confines P :=
  confines_raised (.fault f)

theorem confines_exhausted : (Run.exhausted : Run α).Confines P := fun _ hm => ⟨trivial, hm⟩

theorem confines_act {step : Store → Except RuntimeFault (α × Store)}
    (h : ∀ s, s.Sealed → Yields (fun made => P made.1 ∧ made.2.Sealed) (step s)) :
    (Run.act step).Confines P := by
  intro m hm
  unfold Run.act
  split
  · rename_i a s hstep
    obtain ⟨ha, hs⟩ := h m.store hm.store (a, s) hstep
    exact ⟨ha, hm.withStore hs⟩
  · exact ⟨trivial, hm⟩

theorem confines_ask {question : Store → Except RuntimeFault α}
    (h : ∀ s, s.Sealed → Yields P (question s)) : (Run.ask question).Confines P := by
  intro m hm
  unfold Run.ask
  split
  · rename_i a hquestion
    exact ⟨h m.store hm.store a hquestion, hm⟩
  · exact ⟨trivial, hm⟩

theorem confines_asked (question : Store → Except RuntimeFault α) :
    (Run.ask question).Confines fun _ => True :=
  confines_ask fun _ _ _ _ => trivial

theorem confines_look {view : Store → α} (h : ∀ s, s.Sealed → P (view s)) :
    (Run.look view).Confines P := fun m hm => ⟨h m.store hm.store, hm⟩

theorem confines_looked (view : Store → α) : (Run.look view).Confines fun _ => True :=
  confines_look fun _ _ => trivial

theorem confines_make {step : Store → α × Store}
    (h : ∀ s, s.Sealed → P (step s).1 ∧ (step s).2.Sealed) : (Run.make step).Confines P :=
  fun m hm => ⟨(h m.store hm.store).1, hm.withStore (h m.store hm.store).2⟩

theorem confines_nested {x : Run α} (h : x.Confines P) : x.nested.Confines P := by
  intro m hm
  unfold Run.nested
  split
  · exact ⟨trivial, hm⟩
  · obtain ⟨hgives, hleft⟩ :=
      h { m with depth := m.depth + 1 } ⟨hm.store, hm.names, hm.atHand, hm.scope⟩
    exact ⟨hgives, hleft.store, hleft.names, hleft.atHand, hleft.scope⟩

theorem confines_each {f : α → Run β} {as : List α} (h : ∀ a ∈ as, (f a).Confines Q) :
    (Run.each f as).Confines fun bs => ∀ b ∈ bs, Q b := by
  induction as with
  | nil => exact confines_value (List.forall_mem_nil _)
  | cons a rest ih =>
      obtain ⟨hfirst, hrest⟩ := List.forall_mem_cons.mp h
      exact hfirst.bind fun b hb => (ih hrest).bind fun bs hbs =>
        confines_value (List.forall_mem_cons.mpr ⟨hb, hbs⟩)

theorem confines_eachDo {f : α → Run Unit} {as : List α}
    (h : ∀ a ∈ as, (f a).Confines fun _ => True) :
    (Run.eachDo f as).Confines fun _ => True := by
  induction as with
  | nil => exact confines_value trivial
  | cons a rest ih =>
      obtain ⟨hfirst, hrest⟩ := List.forall_mem_cons.mp h
      exact hfirst.bind fun _ _ => ih hrest

end Steps

/-! ### Statements in a row and loops -/

/-- Whether the value that a function is left with, if it is left with one, is sealed. -/
def Flow.Sealed : Flow → Prop
  | .back v => v.Sealed
  | .next | .leave | .again => True

section Flows

variable {fuel : Nat}

theorem confines_sequence {run : α → Run Flow} {as : List α}
    (h : ∀ a ∈ as, (run a).Confines Flow.Sealed) : (Flow.sequence run as).Confines Flow.Sealed := by
  induction as with
  | nil => exact confines_value trivial
  | cons a rest ih =>
      obtain ⟨hfirst, hrest⟩ := List.forall_mem_cons.mp h
      refine hfirst.bind fun flow hflow => ?_
      cases flow with
      | next => exact ih hrest
      | leave | again | back _ => exact confines_value hflow

/-- What a loop says if it was left before its end. -/
def LeftSealed (left? : Option Flow) : Prop := ∀ flow, left? = some flow → flow.Sealed

theorem leftSealed_some {flow : Flow} (h : flow.Sealed) : LeftSealed (some flow) := by
  rintro _ ⟨⟩
  exact h

theorem confines_repeatWhile {test : Run Bool} {body : Run Flow}
    (htest : test.Confines fun _ => True) (hbody : body.Confines Flow.Sealed) :
    (Flow.repeatWhile test body fuel).Confines LeftSealed := by
  induction fuel with
  | zero => exact confines_exhausted
  | succ fuel ih =>
      refine htest.bind fun holds _ => ?_
      cases holds with
      | false => exact confines_value nofun
      | true =>
          refine hbody.bind fun flow hflow => ?_
          cases flow with
          | next | again => exact ih
          | leave => exact confines_value (leftSealed_some trivial)
          | back v => exact confines_value (leftSealed_some hflow)

theorem confines_repeatOver {body : Value → Run Flow}
    (hbody : ∀ v, v.Sealed → (body v).Confines Flow.Sealed) {cursor : Cursor}
    (hcursor : cursor.Sealed) : (Flow.repeatOver body fuel cursor).Confines LeftSealed := by
  induction fuel generalizing cursor with
  | zero => exact confines_exhausted
  | succ fuel ih =>
      refine (confines_ask fun s hs => Cursor.yields_next hs hcursor).bind fun next hnext => ?_
      cases next with
      | none => exact confines_value nofun
      | some item =>
          obtain ⟨hv, hcursor⟩ := hnext item.1 item.2 rfl
          refine (hbody item.1 hv).bind fun flow hflow => ?_
          cases flow with
          | next | again => exact ih hcursor
          | leave => exact confines_value (leftSealed_some trivial)
          | back v => exact confines_value (leftSealed_some hflow)

end Flows

/-! ### Names -/

section Naming

theorem Store.Sealed.bindLocal {s : Store} (h : s.Sealed) (a : Address) (name : String) {v : Value}
    (hv : v.Sealed) : (s.bindLocal a name v).Sealed where
  intact := h.intact
  lists := h.lists
  dicts := h.dicts
  functions := h.functions
  frames := by
    have hkept : ∀ f : Frame, f.Sealed →
        Frame.Sealed { f with bindings := bind f.bindings name v } := by
      refine fun f hf => ⟨fun other w hw => ?_, hf.names⟩
      rw [bound?_bind] at hw
      split at hw
      · cases hw
        exact hv
      · exact hf.bindings other w hw
    exact forall_getD_modify h.frames hkept a

theorem Store.Sealed.outerValue? {s : Store} (h : s.Sealed) {name : String} {n : Nat}
    {place : Place} {result : Except RuntimeFault Value}
    (hresult : s.outerValue? name n place = some result) : Yields Value.Sealed result := by
  induction n generalizing place with
  | zero => cases hresult
  | succ n ih =>
      cases place with
      | none => cases hresult
      | some a =>
          simp only [Store.outerValue?] at hresult
          split at hresult
          · cases hresult
            split
            · rename_i v hv
              exact yields_ok ((h.frames a).bindings name v hv)
            · exact yields_error _
          · exact ih hresult

variable {name : String} (hname : name ≠ predefinedNames)

include hname

theorem Machine.Confined.globalValue {m : Machine} (h : m.Confined) {names : Value}
    (hnames : names.Serves) : Yields Value.Sealed (m.globalValue names name) := by
  unfold Machine.globalValue
  split
  · rename_i v hv
    exact yields_ok (h.scope name v hname hv)
  · exact Store.yields_predefinedValue h.store hnames name

theorem Machine.Confined.valueOf {m : Machine} (h : m.Confined) (place : Place) :
    Yields Value.Sealed (m.valueOf place name) := by
  unfold Machine.valueOf
  cases place with
  | none => exact h.globalValue hname h.names
  | some a =>
      have hframe := h.store.frames a
      dsimp only
      split
      · split
        · rename_i v hv
          exact yields_ok (hframe.bindings name v hv)
        · exact yields_error _
      · cases houter : m.store.outerValue? name m.store.frames.size (m.store.frame a).outer? with
        | none => exact h.globalValue hname hframe.names
        | some result => exact h.store.outerValue? houter

theorem confines_nameValue (place : Place) :
    (Run.nameValue place name).Confines Value.Sealed := by
  intro m hm
  have hvalue := hm.valueOf hname place
  unfold Run.nameValue
  split
  · rename_i v hv
    exact ⟨hvalue v hv, hm⟩
  · exact ⟨trivial, hm⟩

theorem confines_bindName (place : Place) {v : Value} (hv : v.Sealed) :
    (Run.bindName place name v).Confines fun _ => True := by
  intro m hm
  cases place with
  | none =>
      refine ⟨trivial, hm.store, hm.names, ?_, fun other w hother hw => ?_⟩
      · change ((bound? (bind m.scope name v) predefinedNames).getD .predefinedDict).Serves
        rw [bound?_bind, if_neg (Ne.symm hname)]
        exact hm.atHand
      · change bound? (bind m.scope name v) other = some w at hw
        rw [bound?_bind] at hw
        split at hw
        · cases hw
          exact hv
        · exact hm.scope other w hother hw
  | some a => exact ⟨trivial, hm.withStore (hm.store.bindLocal a name hv)⟩

end Naming

theorem ne_of_not_isReserved {name : String} (h : ¬IsReserved name) : name ≠ predefinedNames := by
  rintro rfl
  exact h isReserved_predefinedNames

theorem confines_makeFunction (place : Place) (name : String) (params : List Param)
    {body : List Stmt} (hbody : ∀ stmt ∈ body, stmt.Unreserved) {defaults : List Value}
    (hdefaults : AreSealed defaults) :
    (makeFunction place name params body defaults).Confines Value.Sealed :=
  fun _ hm => ⟨trivial, hm.withStore (hm.store.addFunction ⟨hdefaults, hbody, hm.atHand⟩)⟩

/-! ### Functions that every script can call -/

theorem confines_register (kind : RegisteredKind) (spec : Value) :
    (registerModule kind spec).Confines Value.Sealed := by
  intro m hm
  unfold registerModule
  split
  · exact ⟨trivial, hm.store, hm.names, hm.atHand, hm.scope⟩
  · exact ⟨trivial, hm⟩

theorem confines_callRegister (callee : String) (kind : RegisteredKind) (args : List Value) :
    (callRegister callee kind args).Confines Value.Sealed := by
  unfold callRegister
  split
  · exact confines_register kind _
  · exact confines_fault _
  · exact confines_fault _

theorem confines_callManifest (callee : String) (args : List Value) :
    (callManifest callee args).Confines Value.Sealed := by
  cases args with
  | nil =>
      intro m hm
      rw [callManifest_nil]
      cases m.registry.manifestText m.store <;> exact ⟨trivial, hm⟩
  | cons => exact confines_fault _

section Builtins

variable {args : List Value} (hargs : AreSealed args)

include hargs

theorem confines_single (name : String) {f : Value → Run Value}
    (hf : ∀ v, v.Sealed → (f v).Confines Value.Sealed) :
    (single name args f).Confines Value.Sealed := by
  unfold single
  split
  · exact hf _ (hargs _ (by simp))
  · exact confines_fault _

theorem confines_optionalSingle (name : String) {nothing : Run Value}
    (hnothing : nothing.Confines Value.Sealed) {f : Value → Run Value}
    (hf : ∀ v, v.Sealed → (f v).Confines Value.Sealed) :
    (optionalSingle name nothing args f).Confines Value.Sealed := by
  unfold optionalSingle
  split
  · exact hnothing
  · exact hf _ (hargs _ (by simp))
  · exact confines_fault _

theorem confines_builtin (b : Builtin) : (b.call args).Confines Value.Sealed := by
  cases b with
  | len | repr =>
      exact confines_single hargs _ fun _ _ => (confines_asked _).bind fun _ _ =>
        confines_value trivial
  | abs =>
      refine confines_single hargs _ fun v _ => ?_
      split
      · exact confines_value (sealed_ofNumber _)
      · exact confines_ask fun _ _ => yields_error _
  | str | int =>
      simp only [Builtin.call]
      split
      · exact confines_value trivial
      · exact (confines_asked _).bind fun _ _ => confines_value trivial
      · exact confines_fault _
  | float =>
      refine confines_optionalSingle hargs _ ?_ fun _ _ => (confines_asked _).bind fun _ _ => ?_
      · exact confines_value trivial
      · exact confines_value trivial
  | bool =>
      refine confines_optionalSingle hargs _ ?_ fun _ _ => (confines_looked _).bind fun _ _ => ?_
      · exact confines_value trivial
      · exact confines_value trivial
  | list =>
      refine confines_optionalSingle hargs _ (confines_make fun s hs => ?_) fun v hv => ?_
      · exact ⟨trivial, hs.addList (by simp)⟩
      · refine (confines_ask fun s hs => Store.yields_elements hs hv).bind fun items hitems => ?_
        exact confines_make fun s hs => ⟨trivial, hs.addList (by simpa [AreSealed] using hitems)⟩
  | range => exact confines_ask fun s _ => s.yields_makeRange args
  | min => exact confines_ask fun s hs => Store.yields_extreme hs _ _ hargs
  | max => exact confines_ask fun s hs => Store.yields_extreme hs _ _ hargs
  | sum =>
      simp only [Builtin.call]
      split
      · refine confines_act fun s hs => (Store.yields_elements hs (hargs _ (by simp))).bind ?_
        exact fun items hitems => Store.yields_addUp items hs trivial hitems
      · exact confines_ask fun s hs => Yields.after fun _ => yields_error _
      · rename_i v start _
        refine confines_act fun s hs => (Store.yields_elements hs (hargs v (by simp))).bind ?_
        exact fun items hitems => Store.yields_addUp items hs (hargs start (by simp)) hitems
      · exact confines_fault _
      · exact confines_fault _
  | sorted =>
      simp only [Builtin.call]
      split
      · refine (confines_ask fun s hs => (Store.yields_elements hs (hargs _ (by simp))).bind
          fun items hitems => yields_sortValues hitems).bind fun items hitems => ?_
        exact confines_make fun s hs => ⟨trivial, hs.addList hitems⟩
      · exact confines_fault _
  | addMap | addStore => exact confines_callRegister _ _ args
  | manifest => exact confines_callManifest _ args

theorem confines_method (m : Method) {receiver : Value} (hreceiver : receiver.Sealed) :
    (m.call receiver args).Confines Value.Sealed := by
  unfold Method.call
  split
  · rename_i a
    split
    · rename_i v
      have hv : v.Sealed := hargs v (by simp)
      refine Run.Confines.bind (P := fun _ => True) (fun m hm => ⟨trivial, hm.withStore ?_⟩)
        fun _ _ => confines_value trivial
      refine hm.store.modifyList a fun items hitems w hw => ?_
      obtain hw | rfl := Array.mem_push.mp hw
      · exact hitems w hw
      · exact hv
    · exact confines_fault _
  · split
    · exact confines_value trivial
    · exact confines_fault _
  · split
    · refine confines_ask fun s hs => ?_
      split
      · exact Yields.after fun _ => yields_ok trivial
      · exact yields_error _
    · exact confines_fault _
  · rename_i a
    have hget (s : Store) (hs : s.Sealed) (key : Value) {other : Value} (hother : other.Sealed) :
        ((valueAt? (s.entries a) key).getD other).Sealed := by
      cases hv : valueAt? (s.entries a) key with
      | none => exact hother
      | some v => exact (hs.dicts a).valueAt? hv
    split
    · exact confines_fault _
    · exact confines_ask fun s hs => Yields.after fun key => yields_ok (hget s hs key trivial)
    · exact confines_ask fun s hs => Yields.after fun key =>
        yields_ok (hget s hs key (hargs _ (by simp)))
    · exact confines_fault _
  · exact confines_ask fun _ _ => yields_error _

end Builtins

theorem confines_attribute {v : Value} (hv : v.Sealed) (name : String) :
    (v.attribute name).Confines Value.Sealed := by
  unfold Value.attribute
  split
  · exact confines_value hv
  · split
    · exact confines_fault _
    · split
      · exact confines_fault _
      · exact confines_ask fun _ _ => yields_error _
    · exact confines_ask fun _ _ => yields_error _

theorem confines_setAttribute {v : Value} (hv : v.Sealed) (name : String) :
    (v.setAttribute name).Confines fun _ => True := by
  unfold Value.setAttribute
  split
  · exact confines_asked _
  · exact (confines_attribute hv name).bind fun _ _ => confines_value trivial

theorem confines_raiseValue (v : Value) : (raiseValue v).Confines Flow.Sealed := by
  unfold raiseValue
  split
  · exact confines_raised _
  · refine Run.Confines.bind (P := fun _ => True)
      (confines_make fun s hs => ⟨trivial, hs.addError _⟩) fun e _ => ?_
    split
    · exact confines_raised _
    · exact confines_fault _
  · exact confines_fault _

end BlockWorkbench.Script
