import BlockWorkbench.Proofs.Json.Characters
import BlockWorkbench.Proofs.Streaming.Delivery

/-!
Records that stand in a body, each with a line feed behind it, and what a client makes of them. It
ends lines at more characters than the service does: a record comes through whole if it holds none
of these, and in pieces if it does. In JSON text that is neither blank nor broken by a line end of
its own, three such characters may stand, all of them inside strings.
-/

namespace BlockWorkbench

namespace Text

/-- Whether a line is passed on. -/
def isFilled (line : List Char) : Bool := !line.all isBlank

theorem isAllBlank_ofList (line : List Char) :
    (!isAllBlank (String.ofList line)) = isFilled line := by
  simp [isAllBlank, isFilled]

/-- A character that does not pair with a line feed behind it ends a line, or belongs to it. -/
theorem linesFrom_cons {c : Char} {cs : List Char} (h : c = '\r' → cs.head? ≠ some '\n')
    (current : List Char) : linesFrom current (c :: cs) =
      if isLineEnd c then current.reverse :: linesFrom [] cs else linesFrom (c :: current) cs := by
  rw [linesFrom]
  rintro rest rfl rfl
  exact h rfl rfl

theorem linesFrom_lineFeed (current rest : List Char) :
    linesFrom current ('\n' :: rest) = current.reverse :: linesFrom [] rest :=
  linesFrom_cons (by simp) current

/-- Behind a line feed a line begins, and what stands before it makes lines of its own. -/
theorem linesFrom_append {cs : List Char} (h : '\n' ∉ cs) (current rest : List Char) :
    (linesFrom current (cs ++ '\n' :: rest)).filter isFilled =
      (linesFrom current cs).filter isFilled ++ (linesFrom [] rest).filter isFilled := by
  induction cs generalizing current with
  | nil =>
      rw [List.nil_append, linesFrom_lineFeed]
      cases current with
      | nil => rfl
      | cons d current =>
          have hone : linesFrom (d :: current) [] = [(d :: current).reverse] := rfl
          rw [hone, ← List.filter_append]
          rfl
  | cons c cs ih =>
      obtain ⟨-, hcs⟩ := not_or.mp (mt List.mem_cons.mpr h)
      by_cases hpair : c = '\r' ∧ cs = []
      · obtain ⟨rfl, rfl⟩ := hpair
        have hone : linesFrom current ['\r'] = [current.reverse] := rfl
        rw [hone, ← List.filter_append]
        rfl
      · have hhead : c = '\r' → cs.head? ≠ some '\n' := fun _ hhead =>
          hcs (List.mem_of_mem_head? hhead)
        have hhead' : c = '\r' → (cs ++ '\n' :: rest).head? ≠ some '\n' := by
          rintro rfl
          cases cs with
          | nil => exact absurd ⟨rfl, rfl⟩ hpair
          | cons d cs => exact hhead rfl
        rw [List.cons_append, linesFrom_cons hhead, linesFrom_cons hhead']
        split
        · rw [List.filter_cons, List.filter_cons, ih hcs]
          split <;> rfl
        · exact ih hcs _

/-- Lines are made of the characters of their text that end no line. -/
theorem mem_linesFrom {cs current line : List Char} (h : line ∈ linesFrom current cs) :
    ∀ c ∈ line, c ∈ current ∨ c ∈ cs ∧ isLineEnd c = false := by
  intro d hd
  fun_induction linesFrom current cs with
  | case1 => cases h
  | case2 current hempty =>
      obtain rfl := List.mem_singleton.mp h
      exact .inl (List.mem_reverse.mp hd)
  | case3 current more ih =>
      obtain rfl | h := List.mem_cons.mp h
      · exact .inl (List.mem_reverse.mp hd)
      · obtain hd | ⟨hd, hend⟩ := ih h
        · cases hd
        · exact .inr ⟨by simp [hd], hend⟩
  | case4 current c more _ hend ih =>
      obtain rfl | h := List.mem_cons.mp h
      · exact .inl (List.mem_reverse.mp hd)
      · obtain hd | ⟨hd, hend⟩ := ih h
        · cases hd
        · exact .inr ⟨by simp [hd], hend⟩
  | case5 current c more _ hend ih =>
      obtain hd | ⟨hd, hend⟩ := ih h
      · obtain rfl | hd := List.mem_cons.mp hd
        · exact .inr ⟨List.mem_cons_self, by simpa using hend⟩
        · exact .inl hd
      · exact .inr ⟨List.mem_cons_of_mem c hd, hend⟩

/-- A text without such a character is one line. -/
theorem linesFrom_of_not_isLineEnd {cs : List Char} (h : ∀ c ∈ cs, isLineEnd c = false)
    (current : List Char) : linesFrom current cs = linesFrom (cs.reverse ++ current) [] := by
  induction cs generalizing current with
  | nil => rfl
  | cons c cs ih =>
      obtain ⟨hc, hcs⟩ := List.forall_mem_cons.mp h
      have hhead : c = '\r' → cs.head? ≠ some '\n' := by
        rintro rfl
        exact absurd hc (by decide)
      rw [linesFrom_cons hhead, hc, if_neg Bool.false_ne_true, ih hcs]
      simp

/-- The lines of a text that are passed on. -/
def filledLines (s : String) : List String := (lines s).filter (!isAllBlank ·)

theorem filledLines_eq (s : String) :
    filledLines s = ((linesFrom [] s.toList).filter isFilled).map String.ofList := by
  rw [filledLines, lines, List.filter_map]
  congr 1
  exact List.filter_congr fun line _ => isAllBlank_ofList line

theorem filledLines_append {s : String} (h : '\n' ∉ s.toList) (rest : String) :
    filledLines (s ++ "\n" ++ rest) = filledLines s ++ filledLines rest := by
  have htext : (s ++ "\n" ++ rest).toList = s.toList ++ '\n' :: rest.toList := by simp
  rw [filledLines_eq, htext, linesFrom_append h, List.map_append, ← filledLines_eq,
    ← filledLines_eq]

theorem mem_filledLines {s line : String} (h : line ∈ filledLines s) :
    ∀ c ∈ line.toList, isLineEnd c = false := by
  rw [filledLines_eq, List.mem_map] at h
  obtain ⟨cs, hcs, rfl⟩ := h
  rw [String.toList_ofList]
  intro c hc
  obtain hc | ⟨-, hend⟩ := mem_linesFrom (List.mem_of_mem_filter hcs) c hc
  · cases hc
  · exact hend

theorem filledLines_of_blank {s : String} (h : isAllBlank s = true) : filledLines s = [] := by
  have hnone : (linesFrom [] s.toList).filter isFilled = [] := by
    refine List.filter_eq_nil_iff.mpr fun line hline => ?_
    simp only [isFilled, Bool.not_eq_true', Bool.not_eq_false, List.all_eq_true]
    intro c hc
    obtain hc | ⟨hc, -⟩ := mem_linesFrom hline c hc
    · cases hc
    · exact List.all_eq_true.mp h c hc
  rw [filledLines_eq, hnone]
  rfl

/-- A text that is not blank is one line if no line ends in it. -/
theorem filledLines_of_not_isLineEnd {s : String} (hfilled : isAllBlank s = false)
    (h : ∀ c ∈ s.toList, isLineEnd c = false) : filledLines s = [s] := by
  have hself : isFilled s.toList = true := by
    rw [← isAllBlank_ofList, String.ofList_toList, hfilled]
    rfl
  have hline : linesFrom s.toList.reverse [] = [s.toList] := by
    rw [linesFrom, if_neg, List.reverse_reverse]
    intro hempty
    rw [List.isEmpty_iff, List.reverse_eq_nil_iff] at hempty
    rw [hempty] at hself
    cases hself
  rw [filledLines_eq, linesFrom_of_not_isLineEnd h, List.append_nil, hline,
    List.filter_cons_of_pos hself]
  simp

end Text

namespace Url

/-- The URL of parts whose path begins with a slash. -/
theorem ofParts_eq_ok {p : Parts} {user host port : List Char} {host' : String}
    {port' : Option Int} (hauthority : splitAuthority p.authority.toList = (user, host, port))
    (hhost : normalHost (String.ofList host) = .ok host')
    (hport : normalPort p.scheme (String.ofList port) = .ok port')
    (hscheme : Text.lower p.scheme ≠ "") (hpath : p.path.startsWith "/" = true) :
    ofParts p = .ok {
      scheme := Text.lower p.scheme, userinfo := String.ofList (escapeChars isSafeInUserinfo user)
      host := host', port := port', path := escape isSafeInPath (normalPath p.path)
      query := p.query.map (escape isSafeInQuery)
      fragment := p.fragment.map (escape isSafeInFragment) } := by
  -- unfolded as a whole, for its equation takes long to make
  delta ofParts
  simp [hauthority, hhost, hport, hscheme, checkPath, hpath]

end Url

namespace Stream

/-- A body that holds records, with a line feed behind each and blank lines anywhere between. -/
inductive Framed : List String → String → Prop
  | nil : Framed [] ""
  | blank {records : List String} {line body : String} : Text.isAllBlank line = true →
      '\n' ∉ line.toList → Framed records body → Framed records (line ++ "\n" ++ body)
  | record {records : List String} {t body : String} : Text.isAllBlank t = false →
      '\n' ∉ t.toList → '\r' ∉ t.toList → Framed records body →
      Framed (t :: records) (t ++ "\n" ++ body)

/-- A body gives what its records give line by line. -/
theorem Framed.filledLines {records : List String} {body : String} (h : Framed records body) :
    Text.filledLines body = records.flatMap Text.filledLines := by
  induction h with
  | nil => rfl
  | blank hblank hline _ ih =>
      rw [Text.filledLines_append hline, Text.filledLines_of_blank hblank, ih, List.nil_append]
  | record _ hline _ _ ih =>
      rw [Text.filledLines_append hline, ih, List.flatMap_cons]

/-- The records come through exactly if no line ends inside one. -/
theorem Framed.filledLines_eq_iff {records : List String} {body : String}
    (h : Framed records body) :
    Text.filledLines body = records ↔
      ∀ t ∈ records, ∀ c ∈ t.toList, Text.isLineEnd c = false := by
  constructor
  · intro hlines t ht
    exact Text.mem_filledLines (hlines ▸ ht)
  · intro hwhole
    induction h with
    | nil => rfl
    | blank hblank hline _ ih =>
        rw [Text.filledLines_append hline, Text.filledLines_of_blank hblank, ih hwhole,
          List.nil_append]
    | record hfilled hline _ _ ih =>
        obtain ⟨ht, hrest⟩ := List.forall_mem_cons.mp hwhole
        rw [Text.filledLines_append hline, Text.filledLines_of_not_isLineEnd hfilled ht, ih hrest,
          List.singleton_append]

theorem Framed.one_line {records : List String} {body t : String} (h : Framed records body)
    (ht : t ∈ records) : '\n' ∉ t.toList ∧ '\r' ∉ t.toList := by
  induction h with
  | nil => cases ht
  | blank _ _ _ ih => exact ih ht
  | record _ hfeed hreturn _ ih =>
      obtain rfl | ht := List.mem_cons.mp ht
      · exact ⟨hfeed, hreturn⟩
      · exact ih ht

/-- The characters at which lines end, and which JSON text may hold inside its strings. -/
def separators : List Char := ['\u0085', '\u2028', '\u2029']

/-- In a JSON text of one line nothing else ends a line. -/
theorem isLineEnd_iff_of_read {t : String} {v : Json Points} (hread : Json.read t = .ok v)
    (hfeed : '\n' ∉ t.toList) (hreturn : '\r' ∉ t.toList) {c : Char} (hc : c ∈ t.toList) :
    Text.isLineEnd c = true ↔ c ∈ separators := by
  have hlegal := Json.isLegal_of_read hread c hc
  have hne : c ≠ '\n' ∧ c ≠ '\r' := ⟨fun h => hfeed (h ▸ hc), fun h => hreturn (h ▸ hc)⟩
  constructor
  · intro hend
    have hsep : c.toNat = '\u0085'.toNat ∨ c.toNat = '\u2028'.toNat ∨ c.toNat = '\u2029'.toNat := by
      simp only [Json.isLegal, Json.isSpace, Bool.or_eq_true, beq_iff_eq, decide_eq_true_eq,
        ← Char.toNat_inj, Text.isLineEnd, Bool.and_eq_true, Char.reduceToNat, ne_eq] at *
      omega
    simpa only [separators, List.mem_cons, List.not_mem_nil, or_false, Char.toNat_inj] using hsep
  · intro hsep
    simp only [separators, List.mem_cons, List.not_mem_nil, or_false] at hsep
    obtain rfl | rfl | rfl := hsep <;> rfl

theorem bodyText_texts (chunks : List String) :
    bodyText (chunks.map .text) = (String.join chunks, none) := by
  induction chunks with
  | nil => rfl
  | cons s chunks ih => rw [List.map_cons, bodyText, ih, String.join_cons]

open StreamingWorker (texts)

theorem bodyEntries_texts (chunks : List String) :
    bodyEntries (chunks.map .text) = texts (Text.filledLines (String.join chunks)) := by
  rw [bodyEntries, bodyText_texts, texts, List.map_map]
  rfl

theorem texts_injective : Function.Injective texts :=
  (List.map_injective_iff.mpr fun _ _ h => by cases h; rfl).comp
    (List.map_injective_iff.mpr fun _ _ h => by cases h; rfl)

theorem readEndpoint_isShallow {endpoint : Json} {folder : Url}
    (h : readEndpoint endpoint = .ok folder) : endpoint.isTooDeep = false := by
  cases endpoint with
  | str s => rfl
  | null | bool _ | int _ | float _ | list _ | object _ => cases h

theorem bearerOf_isShallow {token : Json} {bearer : Option String}
    (h : bearerOf token = .ok bearer) : token.isTooDeep = false := by
  cases hdeep : token.isTooDeep with
  | false => rfl
  | true => simp [bearerOf, Json.isTruthy_of_isTooDeep hdeep, hdeep] at h

/-- A request that can be posted, and is answered with success, opens a session. -/
theorem openSession_web {c : Client} {r : RangeRequest} {headers : List (String × String)}
    {chunks : List Chunk} {replies : List Reply} {folder url : Url} {post : Post}
    (hservice : c.service = .web (.answered 200 headers chunks :: replies))
    (hendpoint : readEndpoint r.endpoint = .ok folder) (hpost : postOf folder r = .ok (url, post)) :
    (c.openSession r).1 = .ok (bodyEntries chunks) := by
  obtain ⟨_, -, h⟩ := bind_eq_ok.mp hpost
  obtain ⟨_, hbearer, -⟩ := bind_eq_ok.mp h
  simp only [Client.openSession, hservice, Client.openWeb, bearerOf_isShallow hbearer,
    readEndpoint_isShallow hendpoint, hendpoint, hpost]
  rfl

/-- A body of records is read in lines: what a session gives of each record are the lines of it
that are not blank. So the records come through as they are exactly if no line ends inside one of
them. In JSON text a line ends where one of the separators stands, and nowhere else. -/
theorem records_whole_iff {c : Client} {r : RangeRequest} {headers : List (String × String)}
    {chunks : List String} {replies : List Reply} {folder url : Url} {post : Post}
    {records : List String}
    (hservice : c.service = .web (.answered 200 headers (chunks.map .text) :: replies))
    (hendpoint : readEndpoint r.endpoint = .ok folder) (hpost : postOf folder r = .ok (url, post))
    (hbody : Framed records (String.join chunks)) :
    (c.openSession r).1 = .ok (texts (records.flatMap Text.filledLines)) ∧
      ((c.openSession r).1 = .ok (texts records) ↔
        ∀ t ∈ records, ∀ c ∈ t.toList, Text.isLineEnd c = false) ∧
      ((∀ t ∈ records, ∃ v : Json Points, Json.read t = .ok v) →
        ((c.openSession r).1 = .ok (texts records) ↔
          ∀ t ∈ records, ∀ c ∈ t.toList, c ∉ separators)) := by
  have hopen : (c.openSession r).1 = .ok (texts (Text.filledLines (String.join chunks))) := by
    rw [openSession_web hservice hendpoint hpost, bodyEntries_texts]
  have hwhole : (c.openSession r).1 = .ok (texts records) ↔
      ∀ t ∈ records, ∀ c ∈ t.toList, Text.isLineEnd c = false := by
    rw [hopen, Except.ok.injEq, texts_injective.eq_iff, hbody.filledLines_eq_iff]
  refine ⟨hbody.filledLines ▸ hopen, hwhole, fun hjson => ?_⟩
  rw [hwhole]
  refine forall₂_congr fun t ht => forall₂_congr fun c hc => ?_
  obtain ⟨v, hread⟩ := hjson t ht
  obtain ⟨hfeed, hreturn⟩ := hbody.one_line ht
  rw [← isLineEnd_iff_of_read hread hfeed hreturn hc, Bool.not_eq_true]

/-- A request for an endpoint that can be posted to. -/
def exampleRange : RangeRequest where
  start := .int 1
  stop := .int 3
  endpoint := .str "https://example.org"
  package := .str "p.spkg"
  moduleName := .str "map_block"

def exampleUrl (path : String) : Url := ⟨"https", "", "example.org", none, path, none, none⟩

theorem readEndpoint_example : readEndpoint exampleRange.endpoint = .ok (exampleUrl "") := by
  have hread : Url.read "https://example.org" = .ok (exampleUrl "") := by rfl
  have htrim : trimEndpoint "https://example.org" = "https://example.org" := by rfl
  have hends : (exampleUrl "").target.endsWith "/" = true := by
    rw [← String.endsWith_toSlice, String.Slice.endsWith_string_iff]
    decide
  have hfolder : (exampleUrl "").asFolder = .ok (exampleUrl "") := by
    rw [Url.asFolder, if_pos hends]
  simp only [readEndpoint, exampleRange, hread, htrim, ok_bind, hfolder, Except.mapError]
  rfl

theorem inFolder_example : (exampleUrl "").inFolder servicePath = .ok (exampleUrl "/v1/stream") := by
  have hpath : "/v1/stream".startsWith "/" = true := by
    rw [String.startsWith_string_iff]
    decide
  exact Url.ofParts_eq_ok (p := ⟨"https", "example.org", "/v1/stream", none, none⟩)
    rfl rfl rfl (by decide) hpath

theorem postOf_example : ∃ post,
    postOf (exampleUrl "") exampleRange = .ok (exampleUrl "/v1/stream", post) := by
  refine ⟨{
    url := (exampleUrl "/v1/stream").text, authorization := none
    body := requestBody exampleRange }, ?_⟩
  simp only [postOf, inFolder_example, Except.mapError, ok_bind]
  rfl

/-- A client whose only answer has this body. -/
def clientFor (body : String) : Client := { service := .web [.answered 200 [] [.text body]] }

/-- Two numbers with a blank line between them. -/
theorem framed_numbers : Framed ["1", "2"] (String.join ["1\n \n2\n"]) :=
  have hlast : Framed ["2"] "2\n" := .record rfl (by decide) (by decide) .nil
  have hblank : Framed ["2"] " \n2\n" :=
    .blank (by decide : Text.isAllBlank " " = true) (by decide) hlast
  .record (by decide : Text.isAllBlank "1" = false) (by decide) (by decide) hblank

theorem records_whole_numbers :
    Framed ["1", "2"] (String.join ["1\n \n2\n"]) ∧
      ((clientFor "1\n \n2\n").openSession exampleRange).1 = .ok (texts ["1", "2"]) := by
  obtain ⟨post, hpost⟩ := postOf_example
  have hservice : (clientFor "1\n \n2\n").service =
      .web (.answered 200 [] (["1\n \n2\n"].map .text) :: []) := rfl
  have hwhole := records_whole_iff hservice readEndpoint_example hpost framed_numbers
  exact ⟨framed_numbers, hwhole.2.1.mpr (by simp [Text.isLineEnd])⟩

/-- A separator inside a string makes two records of one, neither of them JSON. -/
theorem separator_splits_record :
    Framed ["\"a\u2028b\""] (String.join ["\"a\u2028b\"\n"]) ∧
      Json.read "\"a\u2028b\"" = .ok (.str "a\u2028b") ∧
      ((clientFor "\"a\u2028b\"\n").openSession exampleRange).1 =
        .ok (texts ["\"a", "b\""]) ∧
      ((clientFor "\"a\u2028b\"\n").openSession exampleRange).1 ≠
        .ok (texts ["\"a\u2028b\""]) := by
  obtain ⟨post, hpost⟩ := postOf_example
  have hopen : ((clientFor "\"a\u2028b\"\n").openSession exampleRange).1 =
      .ok (texts ["\"a", "b\""]) := by
    rw [openSession_web rfl readEndpoint_example hpost]
    rfl
  refine ⟨.record rfl (by decide) (by decide) .nil, by rfl, hopen, ?_⟩
  rw [hopen, Ne, Except.ok.injEq, texts_injective.eq_iff]
  decide

end Stream

end BlockWorkbench
