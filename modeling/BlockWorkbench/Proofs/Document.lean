import BlockWorkbench.Proofs.Json.Names
import BlockWorkbench.Proofs.Json.RoundTrip
import BlockWorkbench.Proofs.MessagePack

/-!
The two forms in which documents are sent, JSON text and MessagePack. Both say the same of a
document exactly if it can be packed and is itself JSON: all its keys are names, and each
dictionary has each of them once.
-/

namespace BlockWorkbench.Document

/-- Documents whose dictionaries are objects: each key is a name and stands there once. -/
def IsJson (d : Document) : Prop := ∃ v : Json Points, v.Distinct ∧ ofJson v = d

section

variable {τ : Type} [Spelled τ]

mutual

/-- What JSON is made a document is the same JSON, with its texts spelled out. -/
theorem toJson_ofJson (v : Json τ) : (ofJson v).toJson = v.spelled := by
  match v with
  | .null | .bool _ | .int _ | .float _ | .str _ => rfl
  | .list items => rw [ofJson, toJson, toJsonItems_ofJsonItems, Json.spelled, Json.mapTexts]
  | .object fields =>
      rw [ofJson, toJson, toJsonFields_ofJsonFields, Json.spelled, Json.mapTexts]

theorem toJsonItems_ofJsonItems (vs : List (Json τ)) :
    toJsonItems (ofJsonItems vs) = Json.mapItems Spelled.points vs := by
  match vs with
  | [] => rfl
  | v :: rest => rw [ofJsonItems, toJsonItems, toJson_ofJson, toJsonItems_ofJsonItems, Json.mapItems,
      Json.spelled]

theorem toJsonFields_ofJsonFields (fields : List (τ × Json τ)) :
    toJsonFields (ofJsonFields fields) = Json.mapFields Spelled.points fields := by
  match fields with
  | [] => rfl
  | (n, v) :: rest =>
      rw [ofJsonFields, toJsonFields, toJson_ofJson, toJsonFields_ofJsonFields, Scalar.fieldName,
        Json.mapFields, Json.spelled]

end

mutual

theorem ofJson_spelled (v : Json τ) : ofJson v.spelled = ofJson v := by
  match v with
  | .null | .bool _ | .int _ | .float _ | .str _ => rfl
  | .list items => rw [Json.spelled, Json.mapTexts, ofJson, ofJson, ofJsonItems_spelled]
  | .object fields => rw [Json.spelled, Json.mapTexts, ofJson, ofJson, ofJsonFields_spelled]

theorem ofJsonItems_spelled (vs : List (Json τ)) :
    ofJsonItems (Json.mapItems Spelled.points vs) = ofJsonItems vs := by
  match vs with
  | [] => rfl
  | v :: rest =>
      rw [Json.mapItems, ofJsonItems, ofJsonItems, ← Json.spelled, ofJson_spelled,
        ofJsonItems_spelled]

theorem ofJsonFields_spelled (fields : List (τ × Json τ)) :
    ofJsonFields (Json.mapFields Spelled.points fields) = ofJsonFields fields := by
  match fields with
  | [] => rfl
  | (n, v) :: rest =>
      rw [Json.mapFields, ofJsonFields, ofJsonFields, ← Json.spelled, ofJson_spelled,
        ofJsonFields_spelled]
      rfl

end

theorem ofJsonItems_eq_map (vs : List (Json τ)) : ofJsonItems vs = vs.map ofJson := by
  induction vs with
  | nil => rfl
  | cons v rest ih => rw [ofJsonItems, ih, List.map_cons]

theorem ofJsonFields_eq_map (fields : List (τ × Json τ)) :
    ofJsonFields fields = fields.map fun f => (.str (Spelled.points f.1), ofJson f.2) := by
  induction fields with
  | nil => rfl
  | cons f rest ih => rw [ofJsonFields, ih, List.map_cons]

/-- Integers of 64 bits are written with few digits. -/
theorem digits_of_packable {n : Int} (h : Scalar.Packable (.int n)) :
    (Nat.toDigits 10 n.natAbs).length ≤ Number.digitLimit := by
  have hlength : (Nat.toDigits 10 n.natAbs).length ≤ 20 := by
    rw [Nat.length_toDigits_le_iff (by decide) (by decide)]
    simp only [Scalar.Packable] at h
    omega
  exact hlength.trans (by decide)

/-- What can be packed is not nested too deeply to be read, and has no integer too long. -/
theorem readable_of_packable {room depth : Nat} (hroom : room ≤ depth) {v : Json τ}
    (hpack : (ofJson v).Packable room) (hdistinct : v.Distinct) : Json.Readable depth v := by
  induction room generalizing depth v with
  | zero => exact absurd hpack (by simp [Packable])
  | succ room ih =>
      obtain ⟨depth, rfl⟩ : ∃ n, depth = n + 1 := ⟨depth - 1, by omega⟩
      cases v with
      | null | bool b | float x | str s => trivial
      | int n => exact digits_of_packable hpack
      | list items =>
          rw [ofJson, ofJsonItems_eq_map, Packable] at hpack
          rw [Json.Distinct, Json.distinctItems_iff] at hdistinct
          rw [Json.Readable, Json.readableItems_iff]
          exact fun v hv => ih (by omega) (hpack.2 _ (List.mem_map_of_mem hv)) (hdistinct v hv)
      | object fields =>
          rw [ofJson, ofJsonFields_eq_map, Packable] at hpack
          rw [Json.Distinct, Json.distinctFields_iff] at hdistinct
          rw [Json.Readable, Json.readableFields_iff]
          exact ⟨hdistinct.1, fun f hf =>
            ih (by omega) (hpack.2 _ (List.mem_map_of_mem hf)).2 (hdistinct.2 f hf)⟩

end

theorem toJson_ofJson_points (v : Json Points) : (ofJson v).toJson = v := by
  rw [toJson_ofJson]
  exact Json.mapTexts_eq_self (fun _ => rfl) v

/-- What can be packed holds no half of a pair, so its texts are read as they were written. -/
theorem mapTexts_reread_of_packable {room : Nat} {v : Json Points} (ascii : Bool)
    (hpack : (ofJson v).Packable room) : v.mapTexts (Json.reread ascii) = v := by
  induction room generalizing v with
  | zero => exact absurd hpack (by simp [Packable])
  | succ room ih =>
      cases v with
      | null | bool b | float x | int n => rfl
      | str t => exact congrArg Json.str (Points.Whole.reread hpack.1 ascii)
      | list items =>
          rw [ofJson, ofJsonItems_eq_map, Packable] at hpack
          rw [Json.mapTexts, Json.mapItems_eq_map]
          have hitems (v) (hv : v ∈ items) := ih (hpack.2 _ (List.mem_map_of_mem hv))
          exact congrArg Json.list ((List.map_congr_left hitems).trans (List.map_id' items))
      | object fields =>
          rw [ofJson, ofJsonFields_eq_map, Packable] at hpack
          rw [Json.mapTexts, Json.mapFields_eq_map]
          have hfields (f) (hf : f ∈ fields) :
              (Json.reread ascii f.1, f.2.mapTexts (Json.reread ascii)) = f := by
            obtain ⟨hname, hvalue⟩ := hpack.2 _ (List.mem_map_of_mem hf)
            exact Prod.ext (Points.Whole.reread hname.1 ascii) (ih hvalue)
          exact congrArg Json.object ((List.map_congr_left hfields).trans (List.map_id' fields))

/-- The JSON text of a document that can be packed is read as the document exactly if that is
JSON. -/
theorem read_text_iff {d : Document} (h : d.Packable MessagePack.nestingLimit) :
    (∃ v : Json Points, Json.read d.toJson.text = .ok v ∧ ofJson v = d) ↔ d.IsJson := by
  constructor
  · rintro ⟨v, hread, hv⟩
    exact ⟨v, Json.read_distinct hread, hv⟩
  · rintro ⟨v, hdistinct, rfl⟩
    have hroom : MessagePack.nestingLimit ≤ Json.depthLimit := by decide
    have hreadable := readable_of_packable hroom h hdistinct
    have hsame := mapTexts_reread_of_packable true h
    have hread : Json.read v.text = .ok (v.mapTexts (Json.reread true)) :=
      Json.read_text (by rwa [hsame])
    rw [hsame] at hread
    rw [toJson_ofJson_points]
    exact ⟨v, hread, rfl⟩

/-! ### Parts of documents -/

open MessagePack (sizeLimit)

/-- Documents of which clients get the same in both forms, `room` values deep in what is sent. -/
structure Deliverable (room : Nat) (d : Document) : Prop where
  packable : d.Packable room
  isJson : d.IsJson

theorem ofJson_injective : Function.Injective (ofJson : Json Points → Document) :=
  Function.LeftInverse.injective toJson_ofJson_points

theorem isJson_ofJson {v : Json Points} : (ofJson v).IsJson ↔ v.Distinct := by
  constructor
  · rintro ⟨w, hw, h⟩
    rwa [ofJson_injective h] at hw
  · exact fun h => ⟨v, h, rfl⟩

theorem isJson_list {ds : List Document} : (list ds).IsJson ↔ ∀ d ∈ ds, d.IsJson := by
  constructor
  · rintro ⟨v, hv, h⟩ d hd
    cases v with
    | list items =>
        rw [ofJson, ofJsonItems_eq_map, list.injEq] at h
        rw [Json.Distinct, Json.distinctItems_iff] at hv
        subst h
        obtain ⟨v, hmem, rfl⟩ := List.mem_map.mp hd
        exact isJson_ofJson.mpr (hv v hmem)
    | _ => cases h
  · intro h
    choose! v hv hd using h
    refine ⟨.list (ds.map v), ?_, ?_⟩
    · rw [Json.Distinct, Json.distinctItems_iff]
      simpa using hv
    · rw [ofJson, ofJsonItems_eq_map, List.map_map]
      exact congrArg list ((List.map_congr_left hd).trans (List.map_id' ds))

/-- A dictionary with these keys. -/
def named (entries : List (Points × Document)) : Document :=
  .dict (entries.map fun (n, d) => (.str n, d))

theorem fields_eq_named (entries : List (String × Document)) :
    fields entries = named (entries.map fun (n, d) => (.ofString n, d)) := by
  simp [fields, named]

theorem named_injective : Function.Injective named := by
  intro entries others h
  have hkeys : Function.Injective fun e : Points × Document =>
      ((.str e.1 : Scalar Points), e.2) := by
    rintro ⟨n, d⟩ ⟨m, c⟩ h
    simpa using h
  rw [named, named, dict.injEq] at h
  exact List.map_injective_iff.mpr hkeys h

theorem ofJson_object (fs : List (Points × Json Points)) :
    ofJson (.object fs) = named (fs.map fun f => (f.1, ofJson f.2)) := by
  rw [ofJson, ofJsonFields_eq_map, named, List.map_map]
  rfl

theorem isJson_named {entries : List (Points × Document)} :
    (named entries).IsJson ↔ (entries.map (·.1)).Nodup ∧ ∀ e ∈ entries, e.2.IsJson := by
  constructor
  · rintro ⟨v, hv, h⟩
    cases v with
    | object fs =>
        rw [Json.Distinct, Json.distinctFields_iff] at hv
        rw [ofJson_object] at h
        obtain rfl := named_injective h
        refine ⟨by simpa [Function.comp_def] using hv.1, fun e he => ?_⟩
        obtain ⟨f, hf, rfl⟩ := List.mem_map.mp he
        exact isJson_ofJson.mpr (hv.2 f hf)
    | _ => cases h
  · rintro ⟨hnames, h⟩
    choose! v hv hd using h
    refine ⟨.object (entries.map fun e => (e.1, v e)), ?_, ?_⟩
    · rw [Json.Distinct, Json.distinctFields_iff]
      refine ⟨by simpa [Function.comp_def] using hnames, fun f hf => ?_⟩
      obtain ⟨e, he, rfl⟩ := List.mem_map.mp hf
      exact hv e he
    · have hsame (e) (he : e ∈ entries) : (e.1, ofJson (v e)) = e := Prod.ext rfl (hd e he)
      rw [ofJson_object, List.map_map]
      exact congrArg named ((List.map_congr_left hsame).trans (List.map_id' entries))

theorem isJson_fields {entries : List (String × Document)} :
    (fields entries).IsJson ↔ (entries.map (·.1)).Nodup ∧ ∀ e ∈ entries, e.2.IsJson := by
  rw [fields_eq_named, isJson_named, List.map_map, List.forall_mem_map,
    ← List.nodup_map_iff Points.ofString_injective (l := entries.map (·.1)), List.map_map]
  rfl

theorem deliverable_str {room : Nat} {s : Points} :
    (str s).Deliverable (room + 1) ↔ Scalar.Packable (.str s) :=
  ⟨fun h => h.packable, fun h => ⟨h, isJson_ofJson (v := .str s).mpr trivial⟩⟩

theorem deliverable_list {room : Nat} {ds : List Document} :
    (list ds).Deliverable (room + 1) ↔
      ds.length < sizeLimit ∧ ∀ d ∈ ds, d.Deliverable room := by
  constructor
  · rintro ⟨hpack, hjson⟩
    rw [Packable] at hpack
    exact ⟨hpack.1, fun d hd => ⟨hpack.2 d hd, isJson_list.mp hjson d hd⟩⟩
  · rintro ⟨hsize, h⟩
    exact ⟨⟨hsize, fun d hd => (h d hd).packable⟩, isJson_list.mpr fun d hd => (h d hd).isJson⟩

theorem deliverable_fields {room : Nat} {entries : List (String × Document)} :
    (fields entries).Deliverable (room + 1) ↔
      entries.length < sizeLimit ∧ (entries.map (·.1)).Nodup ∧
        ∀ e ∈ entries, Scalar.Packable (.str (.ofString e.1)) ∧ e.2.Deliverable room := by
  constructor
  · rintro ⟨hpack, hjson⟩
    rw [fields, Packable, List.length_map, List.forall_mem_map] at hpack
    obtain ⟨hnames, hvalues⟩ := isJson_fields.mp hjson
    exact ⟨hpack.1, hnames, fun e he => ⟨(hpack.2 e he).1, (hpack.2 e he).2, hvalues e he⟩⟩
  · rintro ⟨hsize, hnames, h⟩
    refine ⟨?_, isJson_fields.mpr ⟨hnames, fun e he => (h e he).2.isJson⟩⟩
    rw [fields, Packable, List.length_map, List.forall_mem_map]
    exact ⟨hsize, fun e he => ⟨(h e he).1, (h e he).2.packable⟩⟩

end BlockWorkbench.Document
