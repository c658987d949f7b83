import BlockWorkbench.Proofs.Json.Strings
import BlockWorkbench.Proofs.Server.Delivery
import BlockWorkbench.Proofs.Text.LowerCase

/-!
Searching the message log. A search looks through the text of a message and through the JSON text
of a value, both in lower case. JSON text writes what is not ASCII by numbers, so what is searched
for is found wherever it stands exactly if it is ASCII.
-/

namespace BlockWorkbench

open Script (Value Store RuntimeFault)
open Text (Ascii)

namespace Text

/-- Whether a character is no double quote, backslash or control character. -/
def IsOrdinary (c : Char) : Prop :=
  c ≠ '"' ∧ c ≠ '\\' ∧ 0x20 ≤ c.toNat ∧ (c.toNat < 0x7f ∨ 0xa0 ≤ c.toNat)

end Text

namespace Points

/-- Whether no character of a text is a double quote, a backslash or a control character. -/
def Ordinary (t : Points) : Prop := ∀ p ∈ t, ∀ c, p.char? = some c → Text.IsOrdinary c

theorem ordinary_ofString {s : String} :
    (ofString s).Ordinary ↔ ∀ c ∈ s.toList, Text.IsOrdinary c := by
  simp [Ordinary, ofString]

end Points

/-! ### Texts inside JSON text -/

namespace Json

/-- What is ASCII and has no escape of its own is written as it is. -/
theorem escapeChar_of_isOrdinary {c : Char} (hascii : c.toNat < 0x80) (h : Text.IsOrdinary c) :
    escapeChar true c = [c] := by
  rw [Text.IsOrdinary] at h
  have hne {d : Char} (hd : d.toNat < 0x20) : c ≠ d := by
    rintro rfl
    omega
  rw [escapeChar, if_neg h.1, if_neg h.2.1, if_neg (hne (by decide)), if_neg (hne (by decide)),
    if_neg (hne (by decide)), if_neg (hne (by decide)), if_neg (hne (by decide)), if_neg]
  simp only [true_and]
  omega

theorem ascii_unitEscape (n : Nat) : Ascii (unitEscape n) := by
  have hdigits (width n : Nat) : Ascii (Text.hexDigits width n) := by
    induction width generalizing n with
    | zero => simp [Ascii, Text.hexDigits]
    | succ width ih =>
        have hdigit : ∀ d < 16, (Nat.digitChar d).toNat < 0x80 := by decide
        rw [Text.hexDigits, Ascii, List.forall_mem_append]
        exact ⟨ih _, by simpa using hdigit _ (Nat.mod_lt n (by decide))⟩
  rw [unitEscape, Ascii, List.forall_mem_cons, List.forall_mem_cons]
  exact ⟨by decide, by decide, hdigits 4 n⟩

theorem ascii_escapeChar (c : Char) : Ascii (escapeChar true c) := by
  have hescaped := escaped_escapeChar true c
  generalize escapeChar true c = cs at hescaped ⊢
  cases hescaped with
  | letter h =>
      have hletter : ∀ p ∈ letterEscapes, p.2.toNat < 0x80 := by decide
      simpa [Ascii] using hletter _ h
  | unit => exact ascii_unitEscape _
  | pair => exact List.forall_mem_append.mpr ⟨ascii_unitEscape _, ascii_unitEscape _⟩
  | plain _ _ _ hascii => simpa [Ascii] using (hascii rfl).trans (by decide)

theorem ascii_writeString (s : String) : Ascii (writeString true s) := by
  rw [writeString_string, Ascii, List.forall_mem_append, List.forall_mem_cons]
  refine ⟨⟨by decide, fun c hc => ?_⟩, by simp⟩
  obtain ⟨d, -, hd⟩ := List.mem_flatMap.mp hc
  exact ascii_escapeChar d c hd

variable {q : String} (hq : ∀ c ∈ q.toList, escapeChar true c = [c])

include hq in
theorem infix_writeString {t : Points} (h : Points.ofString q <:+: t) :
    q.toList <:+: writeString true t := by
  obtain ⟨before, after, rfl⟩ := h
  have hbody : (Points.ofString q).flatMap (escapePoint true) = q.toList := by
    rw [flatMap_ofString (g := escapeChar true) fun p c hchar => by simp only [escapePoint, hchar]]
    exact (List.flatMap_congr hq).trans (List.flatMap_singleton' _)
  have hspelled : Spelled.points (before ++ Points.ofString q ++ after) =
      before ++ Points.ofString q ++ after := rfl
  rw [writeString, hspelled, List.flatMap_append, List.flatMap_append, hbody]
  exact ⟨'"' :: before.flatMap (escapePoint true), after.flatMap (escapePoint true) ++ ['"'],
    by simp⟩

end Json

namespace Json

variable {τ : Type} [Spelled τ]

variable (style : Style) (level : Nat)

theorem infix_writeItems {v : Json τ} {items : List (Json τ)} (h : v ∈ items) :
    write style level v <:+: writeItems style level items := by
  induction items with
  | nil => cases h
  | cons first rest ih =>
      rw [writeItems]
      obtain rfl | h := List.mem_cons.mp h
      · exact List.infix_append _ _ _
      · exact (ih h).trans (List.suffix_append _ _).isInfix

/-- The text of a list holds those of its items. -/
theorem infix_write_list {v : Json τ} {items : List (Json τ)} (h : v ∈ items) :
    write style (level + 1) v <:+: write style level (.list items) := by
  cases items with
  | nil => cases h
  | cons first rest =>
      rw [write]
      obtain rfl | h := List.mem_cons.mp h
      · exact ⟨'[' :: style.lineBreak (level + 1),
          writeItems style (level + 1) rest ++ style.lineBreak level ++ [']'], by simp⟩
      · refine (infix_writeItems style (level + 1) h).trans
          ⟨'[' :: style.lineBreak (level + 1) ++ write style (level + 1) first,
            style.lineBreak level ++ [']'], by simp⟩

theorem infix_writeFields {n : τ} {v : Json τ} {fields : List (τ × Json τ)}
    (h : (n, v) ∈ fields) : writeString style.ascii n <:+: writeFields style level fields ∧
      write style level v <:+: writeFields style level fields := by
  induction fields with
  | nil => cases h
  | cons first rest ih =>
      obtain ⟨name, value⟩ := first
      rw [writeFields]
      obtain ⟨⟨⟩⟩ | h := List.mem_cons.mp h
      · exact ⟨⟨style.separator level, [':', ' '] ++ write style level v ++
            writeFields style level rest, by simp⟩,
          List.infix_append _ _ _⟩
      · have hrest := (List.suffix_append (style.separator level ++ writeString style.ascii name ++
          [':', ' '] ++ write style level value) (writeFields style level rest)).isInfix
        exact ⟨(ih h).1.trans hrest, (ih h).2.trans hrest⟩

/-- The text of an object holds those of its names and values. -/
theorem infix_write_object {n : τ} {v : Json τ} {fields : List (τ × Json τ)}
    (h : (n, v) ∈ fields) : writeString style.ascii n <:+: write style level (.object fields) ∧
      write style (level + 1) v <:+: write style level (.object fields) := by
  cases fields with
  | nil => cases h
  | cons first rest =>
      obtain ⟨name, value⟩ := first
      rw [write]
      obtain ⟨⟨⟩⟩ | h := List.mem_cons.mp h
      · exact ⟨⟨'\x7b' :: style.lineBreak (level + 1), [':', ' '] ++ write style (level + 1) v ++
            writeFields style (level + 1) rest ++ style.lineBreak level ++ ['\x7d'], by simp⟩,
          ⟨'\x7b' :: style.lineBreak (level + 1) ++ writeString style.ascii n ++ [':', ' '],
            writeFields style (level + 1) rest ++ style.lineBreak level ++ ['\x7d'], by simp⟩⟩
      · have hrest : writeFields style (level + 1) rest <:+:
            write style level (.object ((name, value) :: rest)) := by
          rw [write]
          exact ⟨'\x7b' :: style.lineBreak (level + 1) ++ writeString style.ascii name ++
            [':', ' '] ++ write style (level + 1) value, style.lineBreak level ++ ['\x7d'], by simp⟩
        rw [write] at hrest
        have hparts := infix_writeFields style (level + 1) h
        exact ⟨hparts.1.trans hrest, hparts.2.trans hrest⟩

end Json

/-! ### Texts inside values -/

namespace Document

theorem toJsonItems_eq_map (ds : List Document) : toJsonItems ds = ds.map toJson := by
  induction ds with
  | nil => rfl
  | cons d rest ih => rw [toJsonItems, ih, List.map_cons]

theorem toJsonFields_eq_map (entries : List (Scalar Points × Document)) :
    toJsonFields entries = entries.map fun e => (e.1.fieldName, e.2.toJson) := by
  induction entries with
  | nil => rfl
  | cons e rest ih => rw [toJsonFields, ih, List.map_cons]

theorem infix_write_list {d : Document} {ds : List Document} (h : d ∈ ds) (level : Nat) :
    Json.write {} (level + 1) d.toJson <:+: Json.write {} level (list ds).toJson := by
  rw [toJson, toJsonItems_eq_map]
  exact Json.infix_write_list {} level (List.mem_map_of_mem h)

theorem infix_write_dict {key : Scalar Points} {d : Document}
    {entries : List (Scalar Points × Document)}
    (h : (key, d) ∈ entries) (level : Nat) :
    Json.writeString true key.fieldName <:+: Json.write {} level (dict entries).toJson ∧
      Json.write {} (level + 1) d.toJson <:+: Json.write {} level (dict entries).toJson := by
  rw [toJson, toJsonFields_eq_map]
  exact Json.infix_write_object {} level
    (List.mem_map_of_mem (f := fun e => (e.1.fieldName, e.2.toJson)) h)

end Document

namespace Script

/-- Whether a string in a value, or a key of a dictionary in it, contains a text, at any depth. -/
inductive Value.Mentions (s : Store) (q : Points) : Value → Prop where
  | str {t : Points} : q <:+: t → Mentions s q (.str t)
  | component {items : List Value} {v : Value} :
      v ∈ items → Mentions s q v → Mentions s q (.tuple items)
  | item {a : Address} {v : Value} : v ∈ s.items a → Mentions s q v → Mentions s q (.list a)
  | key {a : Address} {t : Points} {v : Value} :
      (.str t, v) ∈ s.entries a → q <:+: t → Mentions s q (.dict a)
  | entry {a : Address} {k v : Value} :
      (k, v) ∈ s.entries a → Mentions s q v → Mentions s q (.dict a)

theorem exists_of_forall₂ {α β : Type} {R : α → β → Prop} {as : List α} {bs : List β}
    (h : List.Forall₂ R as bs) {a : α} (ha : a ∈ as) : ∃ b ∈ bs, R a b := by
  induction h with
  | nil => cases ha
  | cons hab _ ih =>
      obtain rfl | ha := List.mem_cons.mp ha
      · exact ⟨_, List.mem_cons_self, hab⟩
      · obtain ⟨b, hb, hR⟩ := ih ha
        exact ⟨b, List.mem_cons_of_mem _ hb, hR⟩

section

variable {s : Store} {other : Value → Except RuntimeFault Document} {depth : Nat}
  {lists dicts : List Address} {v : Value} {d : Document}

theorem exists_depth (hd : s.documentWithin other depth lists dicts v = .ok d) :
    ∃ rest, depth = rest + 1 := by
  cases depth with
  | zero => exact nomatch hd
  | succ rest => exact ⟨rest, rfl⟩

/-- What a value mentions stands in its JSON text, if it is written as it is. -/
theorem Value.Mentions.infix_write {q : String} (h : v.Mentions s (.ofString q))
    (hq : ∀ c ∈ q.toList, Json.escapeChar true c = [c])
    (hd : s.documentWithin other depth lists dicts v = .ok d) (level : Nat) :
    q.toList <:+: Json.write {} level d.toJson := by
  -- The induction is on where the text stands in the value; each level takes one of the depth.
  induction h generalizing depth lists dicts d level with
  | str ht =>
      obtain ⟨depth, rfl⟩ := exists_depth hd
      cases hd
      exact Json.infix_writeString hq ht
  | component hv _ ih =>
      obtain ⟨depth, rfl⟩ := exists_depth hd
      obtain ⟨ds, hds, rfl⟩ := Store.documentWithin_tuple_eq_ok.mp hd
      obtain ⟨d, hmem, hd⟩ := exists_of_forall₂ hds hv
      exact (ih hd (level + 1)).trans (Document.infix_write_list hmem level)
  | item hv _ ih =>
      obtain ⟨depth, rfl⟩ := exists_depth hd
      obtain ⟨-, ds, hds, rfl⟩ := Store.documentWithin_list_eq_ok.mp hd
      obtain ⟨d, hmem, hd⟩ := exists_of_forall₂ hds (Array.mem_toList_iff.mpr hv)
      exact (ih hd (level + 1)).trans (Document.infix_write_list hmem level)
  | key hmem ht =>
      obtain ⟨depth, rfl⟩ := exists_depth hd
      obtain ⟨-, ds, hds, rfl⟩ := Store.documentWithin_dict_eq_ok.mp hd
      obtain ⟨⟨key, d⟩, hentry, hd⟩ := exists_of_forall₂ hds hmem
      obtain ⟨hkey, -⟩ := Store.documentEntry_eq_ok.mp hd
      cases hkey
      exact (Json.infix_writeString hq ht).trans
        (Document.infix_write_dict hentry level).1
  | entry hmem _ ih =>
      obtain ⟨depth, rfl⟩ := exists_depth hd
      obtain ⟨-, ds, hds, rfl⟩ := Store.documentWithin_dict_eq_ok.mp hd
      obtain ⟨⟨key, d⟩, hentry, hd⟩ := exists_of_forall₂ hds hmem
      obtain ⟨-, hd⟩ := Store.documentEntry_eq_ok.mp hd
      exact (ih hd (level + 1)).trans (Document.infix_write_dict hentry level).2

end

end Script

/-- Whether the text of a message, or the value that it has, contains a text. -/
def Message.Contains (s : Store) (q : Points) : Message Value → Prop
  | .text (.str t) => q <:+: t
  | .json v | .blockCacheUpdated _ v => v.Mentions s q
  | _ => False

namespace Editor

variable {s : Store} {q : Points} {m : Message Value} {log : List (Message Value)}

/-- Whether a search can look through a message: its text is one, or its value has JSON text. -/
def Searchable (s : Store) (m : Message Value) : Prop := ∃ t, searchedText s m = .ok (.str t)

/-- Whether a search for a text shows a message that it can look through. -/
def isFound (s : Store) (q : Points) (m : Message Value) : Bool :=
  match searchedText s m with
  | .ok (.str t) => Text.occursIn q.lower t.lower
  | _ => false

theorem isShown_search (hne : q ≠ []) {shown : Bool} :
    isShown s (.str q) false m = .ok shown ↔ Searchable s m ∧ isFound s q m = shown := by
  have htruthy : (Json.str q).isTruthy = true := by
    simpa [Json.isTruthy, Spelled.points] using hne
  simp only [isShown, Searchable, isFound, htruthy, lowered]
  cases hm : searchedText s m with
  | error f => simp
  | ok text => cases text <;> simp

/-- A search shows the messages that it finds, in the order of the log, if it can look through
all of them. -/
theorem shownMessages_search (hne : q ≠ []) {found : List (Message Value)} :
    shownMessages s (.str q) false log = .ok found ↔
      (∀ m ∈ log, Searchable s m) ∧ log.filter (isFound s q) = found := by
  induction log generalizing found with
  | nil => simp [shownMessages]
  | cons m rest ih =>
      simp only [shownMessages, bind_eq_ok, isShown_search hne, ih, List.forall_mem_cons,
        List.filter_cons]
      constructor
      · rintro ⟨shown, ⟨hm, rfl⟩, others, ⟨hrest, rfl⟩, h⟩
        exact ⟨⟨hm, hrest⟩, Except.ok.inj h⟩
      · rintro ⟨⟨hm, hrest⟩, rfl⟩
        exact ⟨_, ⟨hm, rfl⟩, _, ⟨hrest, rfl⟩, rfl⟩

/-- What contains a text that is ASCII is found by it. -/
theorem isFound_of_contains (hq : q.Ordinary) (hascii : q.Ascii) (hm : Searchable s m)
    (h : m.Contains s q) : isFound s q m = true := by
  obtain ⟨t, ht⟩ := hm
  rw [isFound, ht]
  refine Points.occursIn_lower hascii.sigma_notMem ?_
  obtain ⟨part, rfl, hpart⟩ := hascii.exists_ofString
  have hchars := Points.ordinary_ofString.mp hq
  have hvalue {v : Value} (hv : (valueText s v).map (fun text => Json.str (.ofString text)) =
      .ok (.str t)) (h : v.Mentions s (.ofString part)) : Points.ofString part <:+: t := by
    obtain ⟨_, htext, ⟨⟩⟩ := map_eq_ok.mp hv
    obtain ⟨d, hd, rfl⟩ := map_eq_ok.mp htext
    have hwritten := h.infix_write
      (fun c hc => Json.escapeChar_of_isOrdinary (hpart c hc) (hchars c hc))
      (mapError_eq_ok.mp hd) 0
    rw [Json.text, Json.render, Points.ofString, Points.ofString, String.toList_ofList]
    exact hwritten.map _
  cases m with
  | text source =>
    cases source with
    | str _ => cases ht; exact h
    | _ => exact False.elim h
  | json v => exact hvalue ht h
  | blockCacheUpdated _ v => exact hvalue ht h
  | _ => exact False.elim h

/-! ### What is not found -/

/-- A string that is not ASCII is not in its JSON text: its characters are written by numbers, and
the Kelvin sign, which in lower case is a letter, is written without that letter. -/
theorem not_occursIn_escaped {q : String} (hq : ∀ c ∈ q.toList, Text.IsOrdinary c)
    (h : ¬ Ascii q.toList) :
    Text.occursIn (Points.ofString q).lower
      (Points.ofString (String.ofList (Json.writeString true q))).lower = false := by
  have hwritten : Ascii (String.ofList (Json.writeString true q)).toList := by
    rw [String.toList_ofList]
    exact Json.ascii_writeString q
  rw [Bool.eq_false_iff, ne_eq, Text.occursIn_iff, Points.lower_ofString, Points.lower_ofString]
  intro hshown
  have hfound := Points.ofString_infix hshown
  rw [Text.toList_lower_of_ascii hwritten, String.toList_ofList, Text.lower,
    String.toList_ofList] at hfound
  have hlower : Ascii (Text.lowerFrom [] q.toList) := fun c hc =>
    Text.ascii_map_toLower (Json.ascii_writeString q) c (hfound.subset hc)
  have hchars := Text.ascii_or_kelvin hlower
  have hsigma : '\u03a3' ∉ q.toList := fun hmem => absurd (hchars _ hmem) (by decide)
  have hkelvin : ((Json.escapeChar true '\u212a').map Char.toLower).count 'k' <
      (Text.lowerAlone '\u212a').count 'k' := by decide +kernel
  -- The letter stands less often in the JSON text than in the lower case of the text.
  have hle : ∀ c ∈ q.toList, ((Json.escapeChar true c).map Char.toLower).count 'k' ≤
      (Text.lowerAlone c).count 'k' := by
    intro c hc
    obtain hascii | rfl := hchars c hc
    · rw [Json.escapeChar_of_isOrdinary hascii (hq c hc), Text.lowerAlone_of_ascii hascii,
        List.map_singleton]
    · exact hkelvin.le
  have hlt : ∃ c ∈ q.toList, ((Json.escapeChar true c).map Char.toLower).count 'k' <
      (Text.lowerAlone c).count 'k' := by
    simp only [Ascii, not_forall] at h
    obtain ⟨c, hc, hbeyond⟩ := h
    obtain rfl := (hchars c hc).resolve_left hbeyond
    exact ⟨_, hc, hkelvin⟩
  have hcount := hfound.sublist.count_le 'k'
  rw [Text.lowerFrom_of_notMem hsigma, List.count_flatMap, Json.writeString_string, List.map_append,
    List.map_cons, List.map_flatMap] at hcount
  simp only [List.cons_append, List.count_cons, List.count_append, List.count_flatMap] at hcount
  have hquote : (['"'].map Char.toLower).count 'k' = 0 := by decide
  rw [hquote, if_neg (by decide)] at hcount
  exact absurd hcount (Nat.not_le.mpr (List.sum_lt_sum _ _ hle hlt))

/-- Half of a pair is written by its number, so it is not in JSON text. -/
theorem not_occursIn_of_char? {p : CodePoint} (hp : p.char? = none) (h : p ∈ q) (text : String) :
    Text.occursIn q.lower (Points.ofString text).lower = false := by
  rw [Bool.eq_false_iff, ne_eq, Text.occursIn_iff, Points.lower_ofString]
  intro hshown
  have hwhole := Points.whole_ofString _ p (hshown.subset (Points.mem_lower_of_char? hp h))
  simp [hp] at hwhole

theorem searchedText_json_str (s : Store) (t : Points) :
    searchedText s (.json (.str t)) =
      .ok (.str (.ofString (String.ofList (Json.writeString true t)))) := by
  have hdocument : s.quotingDocument (.str t) = .ok (.str t) := rfl
  rw [searchedText, valueText, hdocument]
  rfl

/-- A text that is not ASCII is not found by itself. -/
theorem isFound_json_str (hq : q.Ordinary) (h : ¬ q.Ascii) :
    isFound s q (.json (.str q)) = false := by
  rw [isFound, searchedText_json_str]
  by_cases hwhole : q.Whole
  · obtain ⟨part, rfl⟩ := hwhole.exists_ofString
    exact not_occursIn_escaped (Points.ordinary_ofString.mp hq) (mt Points.ascii_ofString.mpr h)
  · simp only [Points.Whole, not_forall, Option.not_isSome_iff_eq_none] at hwhole
    obtain ⟨p, hmem, hp⟩ := hwhole
    exact not_occursIn_of_char? hp hmem _

/-! ### Searches -/

/-- Searches for texts with one lower case show the same. -/
theorem messages_congr {p : Points} (hlower : p.lower = q.lower) (hempty : p = [] ↔ q = [])
    (e : Editor) (hideEmpty : Bool) :
    e.messages (.str p) hideEmpty = e.messages (.str q) hideEmpty := by
  have htruthy : (Json.str p).isTruthy = (Json.str q).isTruthy := by
    rw [Bool.eq_iff_iff]
    simp [Json.isTruthy, Spelled.points, hempty]
  have hpart : lowered (.str p) = lowered (.str q) := by rw [lowered, lowered, hlower]
  have hshown (s : Store) : isShown s (.str p) hideEmpty = isShown s (.str q) hideEmpty := by
    funext m
    simp only [isShown, htruthy, hpart]
  have hlog (s : Store) (log : List (Message Value)) :
      shownMessages s (.str p) hideEmpty log = shownMessages s (.str q) hideEmpty log := by
    induction log with
    | nil => rfl
    | cons m rest ih => simp only [shownMessages, hshown, ih]
  simp only [messages, hlog]

/-- A session with a log and nothing else. -/
def holding (log : List (Message Value)) : Editor where
  settings := (Server.fetched []).settings
  streaming := StreamingWorker.workerFor []
  log

theorem messages_holding (hne : q ≠ []) {found : List (Message Value)} :
    ((holding log).messages (.str q) false).result = .ok found ↔
      (∀ m ∈ log, Searchable {} m) ∧ log.filter (isFound {} q) = found :=
  shownMessages_search hne

/-- A search for a text finds, in the order of the log, all messages that contain it, whatever the
messages are, exactly if it is ASCII; of text messages it finds those that contain it if it has no
capital sigma. It fails exactly if it cannot look through some message. What is searched for in
ASCII may as well be in lower or in upper case. -/
theorem search_finds_iff (hne : q ≠ []) (hq : q.Ordinary) :
    ((∀ e : Editor, (∀ m ∈ e.poll.2.log, Searchable e.store m) → ∃ shows : Message Value → Bool,
      (e.messages (.str q) false).result = .ok (e.poll.2.log.filter shows) ∧
        ∀ m ∈ e.poll.2.log, m.Contains e.store q → shows m = true) ↔ q.Ascii) ∧
    (.ofChar '\u03a3' ∉ q → ∀ s t, Message.Contains s q (.text (.str t)) →
      isFound s q (.text (.str t)) = true) ∧
    (∀ e : Editor, (∃ found, (e.messages (.str q) false).result = .ok found) ↔
      ∀ m ∈ e.poll.2.log, Searchable e.store m) ∧
    (q.Ascii → ∀ (e : Editor) (hideEmpty : Bool),
      e.messages (.str q.lower) hideEmpty = e.messages (.str q) hideEmpty ∧
        e.messages (.str q.upper) hideEmpty = e.messages (.str q) hideEmpty) := by
  refine ⟨⟨fun h => ?_, fun hascii e hlog => ?_⟩, fun hsigma _ _ h => Points.occursIn_lower hsigma h,
    fun e => ?_, fun hascii e hideEmpty => ?_⟩
  · by_contra hbeyond
    let m : Message Value := .json (.str q)
    have hm : ∀ n ∈ [m], Searchable {} n := by
      simpa using ⟨_, searchedText_json_str {} q⟩
    obtain ⟨shows, hresult, hshows⟩ := h (holding [m]) hm
    have hshown : shows m = true := hshows m List.mem_cons_self (.str List.infix_rfl)
    obtain ⟨-, hfound⟩ := (messages_holding hne).mp hresult
    have hlog : (holding [m]).poll.2.log = [m] := rfl
    have hmissed : isFound {} q m = false := isFound_json_str hq hbeyond
    simp [hlog, hshown, hmissed] at hfound
  · exact ⟨isFound e.store q, (shownMessages_search hne).mpr ⟨hlog, rfl⟩,
      fun m hm hcontains => isFound_of_contains hq hascii (hlog m hm) hcontains⟩
  · exact ⟨fun ⟨_, h⟩ => ((shownMessages_search hne).mp h).1,
      fun h => ⟨_, (shownMessages_search hne).mpr ⟨h, rfl⟩⟩⟩
  · obtain ⟨part, rfl, hpart⟩ := hascii.exists_ofString
    have hempty {t : String} {f : Char → Char} (ht : t.toList = part.toList.map f) :
        Points.ofString t = [] ↔ Points.ofString part = [] := by
      rw [Points.ofString, Points.ofString, ht, List.map_eq_nil_iff, List.map_eq_nil_iff,
        List.map_eq_nil_iff]
    rw [Points.lower_ofString, Points.upper_ofString]
    refine ⟨messages_congr ?_ (hempty (Text.toList_lower_of_ascii hpart)) e hideEmpty,
      messages_congr ?_ (hempty (Text.toList_upper_of_ascii hpart)) e hideEmpty⟩
    · rw [Points.lower_ofString, Points.lower_ofString, Text.lower_lower_of_ascii hpart]
    · rw [Points.lower_ofString, Points.lower_ofString, Text.lower_upper_of_ascii hpart]

/-- A part of a text is found in any case, but not in a message that says something else. -/
theorem search_finds_iff_part :
    let m : Message Value := .json (.str (.ofString "bar"))
    let e := holding [.text (.str "foo"), m]
    let q := Points.ofString "ar"
    q ≠ [] ∧ q.Ordinary ∧ q.Ascii ∧ ∃ found,
      (e.messages (.str q) false).result = .ok found ∧ m ∈ found ∧
        e.messages (.str q.upper) false = e.messages (.str q) false := by
  intro m e q
  have hne : q ≠ [] := by simp [q, Points.ofString]
  have hq : q.Ordinary := Points.ordinary_ofString.mpr (by simp [Text.IsOrdinary])
  have hascii : q.Ascii := Points.ascii_ofString.mpr (by simp [Ascii])
  obtain ⟨hfinds, -, -, hcases⟩ := search_finds_iff hne hq
  have hlog : ∀ m ∈ e.poll.2.log, Searchable e.store m := by
    simpa [e, m, holding, poll, extend, Bus.drain] using
      ⟨⟨_, rfl⟩, ⟨_, searchedText_json_str _ "bar"⟩⟩
  obtain ⟨shows, hresult, hshows⟩ := hfinds.mpr hascii e hlog
  have hm : m ∈ e.poll.2.log := List.mem_cons_of_mem _ List.mem_cons_self
  have hmentions : m.Contains e.store q :=
    .str ⟨Points.ofString "b", [], by simp [q, Points.ofString]⟩
  exact ⟨hne, hq, hascii, _, hresult, List.mem_filter.mpr ⟨hm, hshows m hm hmentions⟩,
    (hcases hascii e false).2⟩

/-- A letter beyond ASCII is not found in a value that is this letter; and a capital sigma that ends
a word is not found inside one. -/
theorem escaped_letter_not_found :
    let m : Message Value := .json (.str (.ofString "é"))
    let n : Message Value := .text (.str "ΑΣΑ")
    (Points.ofString "é").Ordinary ∧ m.Contains {} "é" ∧
      ((holding [m]).messages (.str "é") false).result = .ok [] ∧
      (Points.ofString "ΑΣ").Ordinary ∧ n.Contains {} "ΑΣ" ∧
      ((holding [n]).messages (.str "ΑΣ") false).result = .ok [] := by
  intro m n
  have hletter : (Points.ofString "é").Ordinary :=
    Points.ordinary_ofString.mpr (by simp [Text.IsOrdinary])
  have hword : (Points.ofString "ΑΣ").Ordinary :=
    Points.ordinary_ofString.mpr (by simp [Text.IsOrdinary])
  have hm : isFound {} "é" m = false :=
    isFound_json_str hletter (mt Points.ascii_ofString.mp (by simp [Ascii]))
  have hn : isFound {} "ΑΣ" n = false := by
    have hpart : "ΑΣ".toList = ['Α', 'Σ'] := by simp
    have htext : "ΑΣΑ".toList = ['Α', 'Σ', 'Α'] := by simp
    have hends : Text.isCaseIgnorable 'Α' = false := by
      rw [Text.isCaseIgnorable, Text.inRanges, ← Array.any_toList]
      decide +kernel
    have hcased : Text.isCased 'Α' = true := by decide +kernel
    have hlower : Text.lowerChar 'Α' = 'α' := by decide +kernel
    have hinside : Text.lowerFrom [] ['Α', 'Σ', 'Α'] = ['α', 'σ', 'α'] := by
      simp [Text.lowerFrom, Text.lowerBetween, Text.meetsCased, hends, hcased, hlower]
    have hfinal : Text.lowerFrom [] ['Α', 'Σ'] = ['α', 'ς'] := by
      simp [Text.lowerFrom, Text.lowerBetween, Text.meetsCased, hends, hcased, hlower]
    change Text.occursIn (Points.ofString "ΑΣ").lower (Points.ofString "ΑΣΑ").lower = false
    rw [Points.lower_ofString, Points.lower_ofString, Points.ofString, Points.ofString, Text.lower,
      Text.lower, hpart, htext, String.toList_ofList, String.toList_ofList, hinside, hfinal]
    decide
  refine ⟨hletter, .str List.infix_rfl, ?_, hword,
    ⟨[], [.ofChar 'Α'], by simp [Points.ofString]⟩, ?_⟩
  · refine (messages_holding (by decide)).mpr ⟨?_, by simp [hm]⟩
    simpa using ⟨_, searchedText_json_str {} "é"⟩
  · refine (messages_holding (by decide)).mpr ⟨?_, by simp [hn]⟩
    simpa using ⟨_, rfl⟩

end Editor

end BlockWorkbench
