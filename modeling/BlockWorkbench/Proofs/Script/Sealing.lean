import BlockWorkbench.Proofs.Script.Sealed

/-!
What is found in a sealed store, or made of sealed values, is sealed again: items and elements,
results of operators, sorted items, arguments bound to parameters, and data that comes from outside.
-/

namespace BlockWorkbench.Script

/-- Whatever comes of a computation has a property. -/
def Yields {α : Type} (P : α → Prop) (x : Except RuntimeFault α) : Prop := ∀ a, x = .ok a → P a

section Yields

variable {α β : Type} {P : α → Prop} {Q : β → Prop}

theorem yields_ok {a : α} (h : P a) : Yields P (.ok a) := fun _ hb => by
  cases hb
  exact h

theorem yields_error (f : RuntimeFault) : Yields P (.error f) := nofun

theorem Yields.bind {x : Except RuntimeFault α} {f : α → Except RuntimeFault β}
    (hx : Yields P x) (hf : ∀ a, P a → Yields Q (f a)) : Yields Q (x >>= f) := by
  intro b hb
  obtain ⟨a, ha, hb⟩ := bind_eq_ok.mp hb
  exact hf a (hx a ha) b hb

/-- Nothing needs to be known of what came before. -/
theorem Yields.after {x : Except RuntimeFault α} {f : α → Except RuntimeFault β}
    (hf : ∀ a, Yields Q (f a)) : Yields Q (x >>= f) := by
  intro b hb
  obtain ⟨a, -, hb⟩ := bind_eq_ok.mp hb
  exact hf a b hb

theorem yields_getD {x : Option (Except RuntimeFault α)}
    (hx : ∀ result, x = some result → Yields P result) (f : RuntimeFault) :
    Yields P (x.getD (.error f)) := by
  cases x with
  | none => exact yields_error f
  | some result => exact hx result rfl

end Yields

def AreSealed (vs : List Value) : Prop := ∀ v ∈ vs, v.Sealed

/-- A sealed value, and the sealed store that it is kept in. -/
def SealedPair (made : Value × Store) : Prop := made.1.Sealed ∧ made.2.Sealed

theorem yields_asKey {v : Value} (hv : v.Sealed) : Yields Value.Sealed v.asKey :=
  fun _ => sealed_of_asKey hv

theorem areSealed_charactersOf (t : Points) : AreSealed (charactersOf t) := by
  simp [AreSealed, charactersOf, Value.Sealed]

theorem areSealed_rangeItems (start stop step : Int) : AreSealed (rangeItems start stop step) := by
  simp [AreSealed, rangeItems, Value.Sealed]

theorem AreSealed.repeated {items : List Value} (h : AreSealed items) (n : Int) :
    AreSealed (repeated n items) := by
  intro v hv
  obtain ⟨l, hl, hv⟩ := List.mem_flatten.mp hv
  exact h v (List.eq_of_mem_replicate hl ▸ hv)

namespace Store

variable {s : Store} (h : s.Sealed)

/-! ### Items -/

section Items

include h

theorem yields_elements {v : Value} (hv : v.Sealed) : Yields AreSealed (s.elements v) := by
  cases v with
  | list a => exact yields_ok fun v hv => h.lists a v (by simpa using hv)
  | tuple items => exact yields_ok (sealed_tuple.mp hv)
  | str t => exact yields_ok (areSealed_charactersOf t)
  | dict a =>
      refine yields_ok fun v hv => ?_
      obtain ⟨e, he, rfl⟩ := List.mem_map.mp hv
      exact (h.dicts a e he).1
  | range start stop step =>
      simp only [elements]
      split
      · exact yields_error _
      · exact yields_ok (areSealed_rangeItems start stop step)
  | none | bool _ | int _ | float _ | function _ | builtin _ | errorClass _ | error _ | method _ _ =>
      exact yields_error _

/-- The items of the dictionary of the predefined names are sealed as well. -/
theorem yields_item {v : Value} (hv : v.Serves) (key : Value) :
    Yields Value.Sealed (s.item v key) := by
  cases v with
  | list a =>
      simp only [item]
      split
      · refine Yields.after fun n => yields_ok ?_
        rw [Array.getD_eq_getD_getElem?]
        cases hitem : (s.items a)[n]? with
        | none => trivial
        | some x => exact h.lists a x (Array.mem_of_getElem? hitem)
      · exact yields_error _
  | tuple items =>
      have hitems : AreSealed items := hv.elim nofun sealed_tuple.mp
      simp only [item]
      split
      · refine Yields.after fun n => yields_ok ?_
        rw [List.getD_eq_getElem?_getD]
        cases hitem : items[n]? with
        | none => trivial
        | some x => exact hitems x (List.mem_of_getElem? hitem)
      · exact yields_error _
  | str t =>
      simp only [item]
      split
      · exact Yields.after fun n => yields_ok trivial
      · exact yields_error _
  | range start stop step =>
      simp only [item]
      split
      · split
        · exact yields_ok trivial
        · exact yields_error _
      · exact yields_error _
  | dict a =>
      refine Yields.after fun key => ?_
      split
      · rename_i v hv
        exact yields_ok ((h.dicts a).valueAt? hv)
      · exact yields_error _
  | none | bool _ | int _ | float _ | function _ | builtin _ | errorClass _ | error _ | method _ _ =>
      exact yields_error _

theorem yields_predefinedValue {names : Value} (hnames : names.Serves) (name : String) :
    Yields Value.Sealed (s.predefinedValue names name) := by
  unfold predefinedValue
  split
  · exact yields_error _
  · exact yields_item h hnames _

theorem yields_setItem {v key value : Value} (hv : v.Sealed) (hkey : key.Sealed)
    (hvalue : value.Sealed) : Yields Sealed (s.setItem v key value) := by
  cases v with
  | list a =>
      simp only [setItem]
      split
      · refine Yields.after fun n => yields_ok (h.modifyList a fun items hitems x hx => ?_)
        obtain hx | rfl := Array.mem_or_eq_of_mem_setIfInBounds hx
        · exact hitems x hx
        · exact hvalue
      · exact yields_error _
  | dict a =>
      exact (yields_asKey hkey).bind fun key hkey =>
        yields_ok (h.setEntries hv ((h.dicts a).setEntry hkey hvalue))
  | none | bool _ | int _ | float _ | str _ | tuple _ | range _ _ _ | function _ | builtin _
  | errorClass _ | error _ | method _ _ => exact yields_error _

theorem yields_unpack (expected : Nat) {v : Value} (hv : v.Sealed) :
    Yields AreSealed (s.unpack expected v) := by
  unfold unpack
  split
  · exact yields_error _
  · rename_i items hitems
    split
    · exact yields_error _
    · split
      · exact yields_error _
      · exact yields_ok (yields_elements h hv items hitems)

end Items

/-! ### Operators -/

section Operators

include h

theorem yields_joined {a b : Value} (ha : a.Sealed) (hb : b.Sealed)
    {result : Except RuntimeFault (Value × Store)} (hresult : s.joined a b = some result) :
    Yields SealedPair result := by
  unfold joined at hresult
  split at hresult <;> cases hresult
  · exact yields_ok ⟨trivial, h⟩
  · exact yields_error _
  · refine yields_ok ⟨sealed_tuple.mpr ?_, h⟩
    exact List.forall_mem_append.mpr ⟨sealed_tuple.mp ha, sealed_tuple.mp hb⟩
  · exact yields_error _
  · refine yields_ok ⟨trivial, h.addList fun v hv => ?_⟩
    exact (Array.mem_append.mp hv).elim (h.lists _ v) (h.lists _ v)
  · exact yields_error _

theorem yields_times {v n : Value} (hv : v.Sealed)
    {result : Except RuntimeFault (Value × Store)} (hresult : s.times v n = some result) :
    Yields SealedPair result := by
  unfold times at hresult
  split at hresult <;> cases hresult
  · exact Yields.after fun n => yields_ok ⟨trivial, h⟩
  · exact Yields.after fun n =>
      yields_ok ⟨sealed_tuple.mpr (AreSealed.repeated (sealed_tuple.mp hv) n), h⟩
  · rename_i a
    refine Yields.after fun n => yields_ok ⟨trivial, h.addList fun v hv => ?_⟩
    have hitems : AreSealed (s.items a).toList := fun v hv => h.lists a v (by simpa using hv)
    exact hitems.repeated n v (by simpa using hv)

theorem yields_multiplied (inPlace : Bool) {a b : Value} (ha : a.Sealed) (hb : b.Sealed)
    {result : Except RuntimeFault (Value × Store)}
    (hresult : s.multiplied inPlace a b = some result) : Yields SealedPair result := by
  have hswapped : s.times b a = some result → Yields SealedPair result := yields_times h hb
  unfold multiplied at hresult
  split at hresult
  · split at hresult
    · cases hresult
    · exact hswapped hresult
  · split at hresult
    · cases hresult
    · exact hswapped hresult
  · obtain hfirst | ⟨-, hsecond⟩ := Option.or_eq_some_iff.mp hresult
    · exact yields_times h ha hfirst
    · exact hswapped hsecond

theorem yields_filled (a b : Value) {result : Except RuntimeFault (Value × Store)}
    (hresult : s.filled a b = some result) : Yields SealedPair result := by
  unfold filled at hresult
  split at hresult <;> cases hresult
  exact Yields.after fun t => yields_ok ⟨trivial, h⟩

theorem yields_operate (inPlace : Bool) (op : BinaryOp) {a b : Value} (ha : a.Sealed)
    (hb : b.Sealed) : Yields SealedPair (s.operate inPlace op a b) := by
  unfold operate
  split
  · exact Yields.after fun n => yields_ok ⟨sealed_ofNumber n, h⟩
  · cases op with
    | add => exact yields_getD (fun _ => yields_joined h ha hb) _
    | mul => exact yields_getD (fun _ => yields_multiplied h inPlace ha hb) _
    | mod => exact yields_getD (fun _ => yields_filled h a b) _
    | sub | div | floorDiv | pow => exact yields_error _

theorem yields_operateInPlace (op : BinaryOp) {a b : Value} (ha : a.Sealed) (hb : b.Sealed) :
    Yields SealedPair (s.operateInPlace op a b) := by
  unfold operateInPlace
  split
  · refine (yields_elements h hb).bind fun more hmore => ?_
    refine yields_ok ⟨trivial, h.modifyList _ fun items hitems v hv => ?_⟩
    exact (Array.mem_append.mp hv).elim (hitems v) fun hv => hmore v (by simpa using hv)
  · refine Yields.after fun n => yields_ok ⟨trivial, h.modifyList _ fun items hitems v hv => ?_⟩
    have hlist : AreSealed items.toList := fun v hv => hitems v (by simpa using hv)
    exact hlist.repeated n v (by simpa using hv)
  · exact yields_operate h true op ha hb

omit h in
theorem yields_unary (op : UnaryOp) (v : Value) : Yields Value.Sealed (s.unary op v) := by
  unfold unary
  split
  · exact yields_ok (sealed_ofNumber _)
  · exact yields_ok (sealed_ofNumber _)
  · exact yields_error _
  · exact yields_error _

end Operators

/-! ### Functions of values -/

theorem yields_addUp (vs : List Value) {s : Store} (h : s.Sealed) {total : Value}
    (htotal : total.Sealed) (hvs : AreSealed vs) : Yields SealedPair (s.addUp total vs) := by
  induction vs generalizing total s with
  | nil => exact yields_ok ⟨htotal, h⟩
  | cons v rest ih =>
      obtain ⟨hv, hrest⟩ := List.forall_mem_cons.mp hvs
      exact (yields_operate h false .add htotal hv).bind fun made hmade =>
        ih hmade.2 hmade.1 hrest

theorem yields_makeRange (s : Store) (args : List Value) :
    Yields Value.Sealed (s.makeRange args) := by
  unfold makeRange
  split
  · exact yields_error _
  · exact Yields.after fun _ => yields_ok trivial
  · exact Yields.after fun _ => Yields.after fun _ => yields_ok trivial
  · refine Yields.after fun _ => Yields.after fun _ => Yields.after fun step => ?_
    split
    · exact yields_error _
    · exact yields_ok trivial
  · exact yields_error _

theorem yields_bestOf {better : Value → Value → Except RuntimeFault Bool} {best : Value}
    (hbest : best.Sealed) {vs : List Value} (hvs : AreSealed vs) :
    Yields Value.Sealed (bestOf better best vs) := by
  induction vs generalizing best with
  | nil => exact yields_ok hbest
  | cons v rest ih =>
      obtain ⟨hv, hrest⟩ := List.forall_mem_cons.mp hvs
      refine Yields.after fun preferred => ih ?_ hrest
      cases preferred with
      | false => exact hbest
      | true => exact hv

include h in
theorem yields_extreme (name : String) (op : OrderOp) {args : List Value} (hargs : AreSealed args) :
    Yields Value.Sealed (s.extreme name op args) := by
  have hbest {v : Value} {rest : List Value} (hitems : AreSealed (v :: rest)) :
      Yields Value.Sealed (bestOf (s.ordered op) v rest) :=
    yields_bestOf (List.forall_mem_cons.mp hitems).1 (List.forall_mem_cons.mp hitems).2
  simp only [extreme]
  split
  · exact yields_error _
  · refine (yields_elements h (hargs _ (by simp))).bind fun items hitems => ?_
    cases items with
    | nil => exact yields_error _
    | cons v rest => exact hbest hitems
  · cases args with
    | nil => exact yields_error _
    | cons v rest => exact hbest hargs

end Store

section Sorting

variable {less : Value → Value → Except RuntimeFault Bool}

theorem yields_insertAll {items : Array Value} (hitems : ∀ v ∈ items, v.Sealed) {vs : List Value}
    (hvs : AreSealed vs) :
    Yields (fun items => ∀ v ∈ items, v.Sealed) (insertAll less items vs) := by
  induction vs generalizing items with
  | nil => exact yields_ok hitems
  | cons v rest ih =>
      obtain ⟨hv, hrest⟩ := List.forall_mem_cons.mp hvs
      refine Yields.after fun i => ih (fun w hw => ?_) hrest
      obtain rfl | hw := List.eq_or_mem_of_mem_insertIdx (by simpa using hw)
      · exact hv
      · exact hitems w (by simpa using hw)

theorem yields_leadingRun (falling : Bool) {run : List Value} (hrun : AreSealed run) {v : Value}
    (hv : v.Sealed) {vs : List Value} (hvs : AreSealed vs) :
    Yields (fun parts => AreSealed parts.1 ∧ AreSealed parts.2)
      (leadingRun less falling run v vs) := by
  induction vs generalizing run v with
  | nil => exact yields_ok ⟨List.forall_mem_cons.mpr ⟨hv, hrun⟩, by simp [AreSealed]⟩
  | cons w rest ih =>
      obtain ⟨hw, hrest⟩ := List.forall_mem_cons.mp hvs
      have hrun : AreSealed (v :: run) := List.forall_mem_cons.mpr ⟨hv, hrun⟩
      refine Yields.after fun isLess => ?_
      split
      · exact ih hrun hw hrest
      · exact yields_ok ⟨hrun, hvs⟩

theorem yields_sortValues {vs : List Value} (hvs : AreSealed vs) :
    Yields (fun items => ∀ v ∈ items, v.Sealed) (sortValues less vs) := by
  unfold sortValues
  split
  · exact yields_ok (by simp)
  · exact yields_ok (by simpa [AreSealed] using hvs)
  · rename_i v w rest
    obtain ⟨hv, hrest⟩ := List.forall_mem_cons.mp hvs
    refine Yields.after fun falling =>
      (yields_leadingRun falling (by simp [AreSealed]) hv hrest).bind fun parts hparts =>
        yields_insertAll (fun x hx => hparts.1 x ?_) hparts.2
    cases falling <;> simpa using hx

end Sorting

theorem yields_dictOf {entries pairs : List (Value × Value)} (hentries : SealedEntries entries)
    (hpairs : SealedEntries pairs) : Yields SealedEntries (dictOf entries pairs) := by
  induction pairs generalizing entries with
  | nil => exact yields_ok hentries
  | cons e rest ih =>
      obtain ⟨he, hrest⟩ := List.forall_mem_cons.mp hpairs
      exact (yields_asKey he.1).bind fun key hkey => ih (hentries.setEntry hkey he.2) hrest

theorem yields_bindArguments {f : FunctionObject} (hf : f.Sealed) {args : List Value}
    (hargs : AreSealed args) :
    Yields (fun bindings => ∀ name v, bound? bindings name = some v → v.Sealed)
      (bindArguments f args) := by
  unfold bindArguments
  dsimp only
  split
  · exact yields_error _
  · split
    · exact yields_error _
    · refine yields_ok fun name v hv => ?_
      obtain ⟨e, he, rfl⟩ := Option.map_eq_some_iff.mp hv
      have hmem := (List.of_mem_zip (List.mem_of_find?_eq_some he)).2
      exact (List.mem_append.mp hmem).elim (hargs e.2) fun hmem =>
        hf.defaults e.2 (List.mem_of_mem_drop hmem)

namespace Cursor

/-- Whether a loop comes to sealed values only. -/
def Sealed : Cursor → Prop
  | items rest | keysAt _ _ rest => AreSealed rest
  | listAt _ _ | rangeAt _ _ _ => True

variable {s : Store} (h : s.Sealed)

include h

theorem yields_start {v : Value} (hv : v.Sealed) : Yields Sealed (start s v) := by
  have helements : Yields Sealed (do return items (← s.elements v) : Except RuntimeFault Cursor) :=
    (Store.yields_elements h hv).bind fun rest hrest => yields_ok hrest
  cases v with
  | list a => exact yields_ok trivial
  | dict a =>
      refine yields_ok fun v hv => ?_
      obtain ⟨e, he, rfl⟩ := List.mem_map.mp hv
      exact (h.dicts a e he).1
  | range => exact yields_ok trivial
  | none | bool _ | int _ | float _ | str _ | tuple _ | function _ | builtin _ | errorClass _
  | error _ | method _ _ => exact helements

theorem yields_next {cursor : Cursor} (hcursor : cursor.Sealed) :
    Yields (fun next => ∀ v cursor, next = some (v, cursor) → v.Sealed ∧ cursor.Sealed)
      (next s cursor) := by
  unfold next
  split
  · exact yields_ok nofun
  · obtain ⟨hv, hrest⟩ := List.forall_mem_cons.mp hcursor
    refine yields_ok fun v cursor heq => ?_
    cases heq
    exact ⟨hv, hrest⟩
  · rename_i a i
    refine yields_ok fun v cursor heq => ?_
    obtain ⟨x, hx, heq⟩ := Option.map_eq_some_iff.mp heq
    cases heq
    exact ⟨h.lists a v (Array.mem_of_getElem? hx), trivial⟩
  · split
    · exact yields_error _
    · split
      · exact yields_ok nofun
      · obtain ⟨hv, hrest⟩ := List.forall_mem_cons.mp hcursor
        refine yields_ok fun v cursor heq => ?_
        cases heq
        exact ⟨hv, hrest⟩
  · exact yields_ok nofun
  · refine yields_ok fun v cursor heq => ?_
    cases heq
    exact ⟨trivial, trivial⟩

end Cursor

/-! ### Data from outside -/

namespace Store

mutual

theorem sealed_ofJson {s : Store} (h : s.Sealed) (v : Json Points) : SealedPair (s.ofJson v) := by
  cases v with
  | null | bool _ | int _ | float _ | str _ => exact ⟨trivial, h⟩
  | list items =>
      obtain ⟨hitems, hstore⟩ := sealed_ofJsonItems h items
      exact ⟨trivial, hstore.addList (by simpa [AreSealed] using hitems)⟩
  | object fields =>
      obtain ⟨hentries, hstore⟩ := sealed_ofJsonFields h fields
      exact hstore.addDict hentries

theorem sealed_ofJsonItems {s : Store} (h : s.Sealed) (items : List (Json Points)) :
    AreSealed (s.ofJsonItems items).1 ∧ (s.ofJsonItems items).2.Sealed := by
  cases items with
  | nil => exact ⟨List.forall_mem_nil _, h⟩
  | cons v rest =>
      obtain ⟨hv, hfirst⟩ := sealed_ofJson h v
      obtain ⟨hrest, hstore⟩ := sealed_ofJsonItems hfirst rest
      exact ⟨List.forall_mem_cons.mpr ⟨hv, hrest⟩, hstore⟩

theorem sealed_ofJsonFields {s : Store} (h : s.Sealed) (fields : List (Points × Json Points)) :
    SealedEntries (s.ofJsonFields fields).1 ∧ (s.ofJsonFields fields).2.Sealed := by
  cases fields with
  | nil => exact ⟨List.forall_mem_nil _, h⟩
  | cons field rest =>
      obtain ⟨n, v⟩ := field
      obtain ⟨hv, hfirst⟩ := sealed_ofJson h v
      obtain ⟨hrest, hstore⟩ := sealed_ofJsonFields hfirst rest
      exact ⟨List.forall_mem_cons.mpr ⟨⟨trivial, hv⟩, hrest⟩, hstore⟩

end

end Store

end BlockWorkbench.Script
