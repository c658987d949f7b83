import BlockWorkbench.Proofs.Json.RoundTrip
import BlockWorkbench.Proofs.Script.Data

/-!
Data that is held is sent as itself. A value holds at most one piece of data, and the lists and
dictionaries on the way to a part of it hold more than the part, so none of them is met again;
what is not nested too deeply and has no integer too long is thus sent whole.
-/

namespace BlockWorkbench

/-- What can be read inside some brackets can be read inside fewer. -/
theorem Json.Readable.mono {τ : Type} {depth depth' : Nat} (hdepth : depth ≤ depth') {v : Json τ}
    (h : v.Readable depth) : v.Readable depth' := by
  induction depth generalizing depth' v with
  | zero => cases v <;> simp_all [Json.Readable]
  | succ depth ih =>
      obtain ⟨depth', rfl⟩ : ∃ n, depth' = n + 1 := ⟨depth' - 1, by omega⟩
      have hdepth := Nat.le_of_succ_le_succ hdepth
      cases v with
      | null | bool _ | float _ | str _ => trivial
      | int _ => simpa [Json.Readable] using h
      | list items =>
          rw [Json.Readable, Json.readableItems_iff] at h ⊢
          exact fun v hv => ih hdepth (h v hv)
      | object fields =>
          rw [Json.Readable, Json.readableFields_iff] at h ⊢
          exact ⟨h.1, fun f hf => ih hdepth (h.2 f hf)⟩

namespace Script.Store

variable {s : Store}

mutual

/-- A value holds at most one piece of data. -/
theorem Holds.unique : ∀ {v w : Json Points} {x : Value}, s.Holds v x → s.Holds w x → v = w
  | .null, w, _, rfl, hw => by cases w <;> simp_all [Holds]
  | .bool _, w, _, rfl, hw => by cases w <;> simp_all [Holds]
  | .int _, w, _, rfl, hw => by cases w <;> simp_all [Holds]
  | .float _, w, _, rfl, hw => by cases w <;> simp_all [Holds]
  | .str _, w, _, rfl, hw => by
      cases w <;> simp_all [Holds]
  | .list items, w, _, ⟨a, values, rfl, ha, hitems⟩, hw => by
      cases w with
      | list others =>
          obtain ⟨_, _, ⟨⟩, ha', hothers⟩ := hw
          cases ha.symm.trans ha'
          rw [HoldsItems.unique hitems hothers]
      | _ => simp [Holds] at hw
  | .object fields, w, _, ⟨a, entries, rfl, ha, hfields⟩, hw => by
      cases w with
      | object others =>
          obtain ⟨_, _, ⟨⟩, ha', hothers⟩ := hw
          cases ha.symm.trans ha'
          rw [HoldsFields.unique hfields hothers]
      | _ => simp [Holds] at hw

theorem HoldsItems.unique : ∀ {items others : List (Json Points)} {values : List Value},
    s.HoldsItems items values → s.HoldsItems others values → items = others
  | [], others, _, rfl, h => by
      cases others with
      | nil => rfl
      | cons => simp [HoldsItems] at h
  | v :: rest, others, _, ⟨x, xs, rfl, hx, hxs⟩, h => by
      cases others with
      | nil => simp [HoldsItems] at h
      | cons w others =>
          obtain ⟨_, _, ⟨⟩, hx', hxs'⟩ := h
          rw [Holds.unique hx hx', HoldsItems.unique hxs hxs']

theorem HoldsFields.unique : ∀ {fields others : List (Points × Json Points)}
    {entries : List (Value × Value)},
    s.HoldsFields fields entries → s.HoldsFields others entries → fields = others
  | [], others, _, rfl, h => by
      cases others with
      | nil => rfl
      | cons => simp [HoldsFields] at h
  | (n, v) :: rest, others, _, ⟨x, xs, rfl, hx, hxs⟩, h => by
      cases others with
      | nil => simp [HoldsFields] at h
      | cons other others =>
          obtain ⟨n', w⟩ := other
          obtain ⟨_, _, hentries, hx', hxs'⟩ := h
          obtain ⟨hentry, rfl⟩ := List.cons.inj hentries
          obtain ⟨hname, rfl⟩ := Prod.mk.inj hentry
          rw [show n = n' from Value.str.inj hname, Holds.unique hx hx', HoldsFields.unique hxs hxs']

end

/-- The lists and dictionaries around a value hold larger data than a part of size `n`. -/
structure Around (s : Store) (n : Nat) (lists dicts : List Address) : Prop where
  lists : ∀ a ∈ lists, ∃ w : Json Points, s.Holds w (.list a) ∧ n < sizeOf w
  dicts : ∀ a ∈ dicts, ∃ w : Json Points, s.Holds w (.dict a) ∧ n < sizeOf w

variable {other : Value → Except RuntimeFault Document} {lists dicts : List Address} {n k : Nat}

theorem Around.mono (h : s.Around n lists dicts) (hk : k ≤ n) : s.Around k lists dicts where
  lists a ha := (h.lists a ha).imp fun _ hw => ⟨hw.1, hk.trans_lt hw.2⟩
  dicts a ha := (h.dicts a ha).imp fun _ hw => ⟨hw.1, hk.trans_lt hw.2⟩

theorem Around.list (h : s.Around n lists dicts) {v : Json Points} {a : Address}
    (hv : s.Holds v (.list a)) (hn : sizeOf v ≤ n) (hk : k < sizeOf v) :
    a ∉ lists ∧ s.Around k (a :: lists) dicts := by
  constructor
  · intro ha
    obtain ⟨w, hw, hlt⟩ := h.lists a ha
    obtain rfl := hv.unique hw
    omega
  · have hparts := h.mono (show k ≤ n by omega)
    exact ⟨List.forall_mem_cons.mpr ⟨⟨v, hv, hk⟩, hparts.lists⟩, hparts.dicts⟩

theorem Around.dict (h : s.Around n lists dicts) {v : Json Points} {a : Address}
    (hv : s.Holds v (.dict a)) (hn : sizeOf v ≤ n) (hk : k < sizeOf v) :
    a ∉ dicts ∧ s.Around k lists (a :: dicts) := by
  constructor
  · intro ha
    obtain ⟨w, hw, hlt⟩ := h.dicts a ha
    obtain rfl := hv.unique hw
    omega
  · have hparts := h.mono (show k ≤ n by omega)
    exact ⟨hparts.lists, List.forall_mem_cons.mpr ⟨⟨v, hv, hk⟩, hparts.dicts⟩⟩

theorem documentWithin_list {depth : Nat} {a : Address} {values : Array Value}
    (ha : s.lists[a]? = some values) (hnew : a ∉ lists) :
    s.documentWithin other (depth + 1) lists dicts (.list a) =
      (eachDocument (s.documentWithin other depth (a :: lists) dicts) values.toList).map .list := by
  have hitems : s.items a = values := by simp [items, Array.getD_eq_getD_getElem?, ha]
  have hcontains : lists.contains a = false := by simpa using hnew
  rw [documentWithin, hcontains, hitems]
  rfl

theorem documentWithin_dict {depth : Nat} {a : Address} {entries : List (Value × Value)}
    (ha : s.dicts[a]? = some entries) (hnew : a ∉ dicts) :
    s.documentWithin other (depth + 1) lists dicts (.dict a) =
      (eachDocument (s.documentEntry (s.documentWithin other depth lists (a :: dicts)))
        entries).map .dict := by
  have hentries : s.entries a = entries := by simp [Store.entries, Array.getD_eq_getD_getElem?, ha]
  have hcontains : dicts.contains a = false := by simpa using hnew
  rw [documentWithin, hcontains, hentries]
  rfl

theorem documentEntry_str {make : Value → Except RuntimeFault Document} (n : Points) {x : Value}
    {d : Document} (h : make x = .ok d) :
    s.documentEntry make (.str n, x) = .ok (.str n, d) := by
  simp [documentEntry, Value.toScalar?, h]

mutual

theorem documentWithin_of_holds : ∀ {v : Json Points} {x : Value} {d depth : Nat}
    {lists dicts : List Address}, s.Holds v x → v.Readable d → d < depth →
    s.Around (sizeOf v) lists dicts →
    s.documentWithin other depth lists dicts x = .ok (.ofJson v)
  | v, x, d, 0, _, _, _, _, hdepth, _ => absurd hdepth (Nat.not_lt_zero d)
  | .null, _, _, depth + 1, _, _, rfl, _, _, _ => rfl
  | .bool _, _, _, depth + 1, _, _, rfl, _, _, _ => rfl
  | .float _, _, _, depth + 1, _, _, rfl, _, _, _ => rfl
  | .str _, _, _, depth + 1, _, _, rfl, _, _, _ => rfl
  | .int n, _, _, depth + 1, lists, dicts, rfl, hv, _, _ => by
      have hdigits : (Nat.toDigits 10 n.natAbs).length ≤ Number.digitLimit := by
        simpa [Json.Readable] using hv
      exact s.documentWithin_int other depth lists dicts
        ((Nat.length_toDigits_le_iff (by decide) (by decide)).mp hdigits)
  | .list items, _, 0, _ + 1, _, _, _, hv, _, _ => False.elim hv
  | .list items, _, d + 1, depth + 1, lists, dicts, ⟨a, values, rfl, ha, hitems⟩, hv, hdepth,
    h => by
      have hlist : s.Holds (.list items) (.list a) := ⟨a, values, rfl, ha, hitems⟩
      obtain ⟨hnew, hparts⟩ := h.list hlist le_rfl (k := sizeOf items) (by simp)
      have hsent := eachDocument_of_holds hitems hv (Nat.lt_of_succ_lt_succ hdepth) hparts
      rw [documentWithin_list ha hnew, hsent]
      rfl
  | .object fields, _, 0, _ + 1, _, _, _, hv, _, _ => False.elim hv
  | .object fields, _, d + 1, depth + 1, lists, dicts, ⟨a, entries, rfl, ha, hfields⟩, hv,
    hdepth, h => by
      have hdict : s.Holds (.object fields) (.dict a) := ⟨a, entries, rfl, ha, hfields⟩
      obtain ⟨hnew, hparts⟩ := h.dict hdict le_rfl (k := sizeOf fields) (by simp)
      have hsent := eachEntry_of_holds hfields hv.2 (Nat.lt_of_succ_lt_succ hdepth) hparts
      rw [documentWithin_dict ha hnew, hsent]
      rfl

theorem eachDocument_of_holds : ∀ {items : List (Json Points)} {values : List Value} {d depth : Nat}
    {lists dicts : List Address}, s.HoldsItems items values → Json.ReadableItems d items →
    d < depth → s.Around (sizeOf items) lists dicts →
    eachDocument (s.documentWithin other depth lists dicts) values = .ok (Document.ofJsonItems items)
  | [], _, _, _, _, _, rfl, _, _, _ => rfl
  | v :: rest, _, d, depth, lists, dicts, ⟨x, xs, rfl, hx, hxs⟩, hv, hdepth, h => by
      have hfirst := documentWithin_of_holds hx hv.1 hdepth (h.mono (by simp; omega))
      have hrest := eachDocument_of_holds hxs hv.2 hdepth (h.mono (by simp))
      simp [eachDocument, hfirst, hrest, Document.ofJsonItems]

theorem eachEntry_of_holds : ∀ {fields : List (Points × Json Points)} {entries : List (Value × Value)}
    {d depth : Nat} {lists dicts : List Address}, s.HoldsFields fields entries →
    Json.ReadableFields d fields → d < depth → s.Around (sizeOf fields) lists dicts →
    eachDocument (s.documentEntry (s.documentWithin other depth lists dicts)) entries =
      .ok (Document.ofJsonFields fields)
  | [], _, _, _, _, _, rfl, _, _, _ => rfl
  | (n, v) :: rest, _, d, depth, lists, dicts, ⟨x, xs, rfl, hx, hxs⟩, hv, hdepth, h => by
      have hfirst := documentWithin_of_holds hx hv.1 hdepth (h.mono (by simp; omega))
      have hrest := eachEntry_of_holds hxs hv.2 hdepth (h.mono (by simp))
      simp [eachDocument, documentEntry_str n hfirst, hrest, Document.ofJsonFields, Spelled.points]

end

/-- Data that can be read again is sent as itself. -/
theorem document_of_holds {v : Json Points} {x : Value} {d : Nat} (hx : s.Holds v x)
    (hv : v.Readable d) (hd : d < nestingLimit) : s.document x = .ok (.ofJson v) :=
  documentWithin_of_holds hx hv hd ⟨by simp, by simp⟩

theorem send_of_holds {v : Json Points} {x : Value} {d : Nat} (hx : s.Holds v x) (hv : v.Readable d)
    (hd : d < nestingLimit) : s.send x = .ok (.ofJson v) := by
  rw [send, document_of_holds hx hv hd]
  rfl

end Script.Store

end BlockWorkbench
