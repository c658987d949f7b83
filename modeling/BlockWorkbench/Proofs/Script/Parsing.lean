import BlockWorkbench.Script.Parser
import BlockWorkbench.Proofs.Outcome

/-!
What a part of the grammar depends on: the tokens that it uses and the one behind them. More fuel
and other tokens further on make no difference.
-/

namespace BlockWorkbench.Script

theorem ne_cons_of_head {ts ts' : List Token} (h : ts'.head? = ts.head?) {t : Token}
    (hne : ∀ more, ts = t :: more → False) : ∀ more, ts' = t :: more → False := by
  rintro more rfl
  cases ts with
  | nil => simp at h
  | cons u ts =>
      simp only [List.head?_cons, Option.some.injEq] at h
      exact hne ts (by rw [h])

/-- Two rests that an expression which ends before them cannot tell apart. Behind `not` it looks
one token further, for an `in`. -/
structure Alike (rest rest' : List Token) : Prop where
  head : rest'.head? = rest.head?
  second : rest.head? = some (.keyword "not") → rest'[1]? = rest[1]?

namespace Alike

theorem cons {rest rest' : List Token} (h : Alike rest rest') (t : Token) :
    Alike (t :: rest) (t :: rest') :=
  ⟨rfl, fun _ => by simpa [List.head?_eq_getElem?] using h.head⟩

@[simp] theorem cons_iff {rest rest' : List Token} {t : Token} :
    Alike (t :: rest) (t :: rest') ↔ (t = .keyword "not" → rest'.head? = rest.head?) := by
  constructor
  · rintro ⟨-, h⟩ rfl
    simpa [List.head?_eq_getElem?] using h rfl
  · exact fun h => ⟨rfl, fun ht => by simpa [List.head?_eq_getElem?] using h (by simpa using ht)⟩

theorem append {rest rest' : List Token} (h : Alike rest rest') (used : List Token) :
    Alike (used ++ rest) (used ++ rest') := by
  induction used with
  | nil => exact h
  | cons t used ih => exact ih.cons t

theorem ne_cons {rest rest' : List Token} (h : Alike rest rest') {t : Token}
    (hne : ∀ more, rest = t :: more → False) : ∀ more, rest' = t :: more → False :=
  ne_cons_of_head h.head hne

theorem exists_cons {rest rest' : List Token} {t : Token} (h : Alike (t :: rest) rest') :
    ∃ more, rest' = t :: more := by
  cases rest' with
  | nil => simpa using h.head
  | cons u more =>
      have hhead := h.head
      simp only [List.head?_cons, Option.some.injEq] at hhead
      exact ⟨more, by rw [hhead]⟩

end Alike

/-- What `p` makes of tokens, `q` makes of those that `p` uses, before any rest that looks the
same. -/
def Carries {α : Type} (p q : List Token → Except Stop (α × List Token)) : Prop :=
  ∀ {ts rest : List Token} {a : α}, p ts = .ok (a, rest) →
    ∃ used, ts = used ++ rest ∧ ∀ {rest' : List Token}, Alike rest rest' →
      q (used ++ rest') = .ok (a, rest')

theorem compareOp?_local {ts rest : List Token} {op : CompareOp}
    (h : compareOp? ts = some (op, rest)) :
    ∃ used, ts = used ++ rest ∧ ∀ rest', Alike rest rest' →
      compareOp? (used ++ rest') = some (op, rest') := by
  unfold compareOp? at h
  split at h
  case h_10 rest hnot =>
    cases h
    refine ⟨[.keyword "is"], rfl, fun rest' hr => ?_⟩
    have hnot := hr.ne_cons (t := .keyword "not") (fun more h => by simp_all)
    simp [compareOp?]
  case h_8 | h_9 =>
    cases h
    exact ⟨[_, _], rfl, fun _ _ => rfl⟩
  case h_11 => cases h
  all_goals
    cases h
    exact ⟨[_], rfl, fun _ _ => rfl⟩

theorem compareOp?_none {rest rest' : List Token} (h : compareOp? rest = none)
    (hr : Alike rest rest') : compareOp? rest' = none := by
  obtain ⟨hhead, hsecond⟩ := hr
  cases hop : compareOp? rest' with
  | none => rfl
  | some p =>
      exfalso
      cases rest with
      | nil => simp_all [compareOp?]
      | cons t rest =>
          cases rest' with
          | nil => simp at hhead
          | cons t' rest' =>
              simp only [List.head?_cons, Option.some.injEq] at hhead
              subst hhead
              simp only [List.head?_cons, Option.some.injEq] at hsecond
              -- Behind `not` the next token counts too, and there both rests have the same.
              unfold compareOp? at hop
              split at hop
              case h_11 => cases hop
              case h_8 heq =>
                cases heq
                cases rest with
                | nil => simpa using hsecond rfl
                | cons u rest =>
                    have hu := hsecond rfl
                    simp only [List.getElem?_cons_succ, List.getElem?_cons_zero,
                      Option.some.injEq] at hu
                    simp [← hu, compareOp?] at h
              case h_9 heq | h_10 _ heq =>
                cases heq
                unfold compareOp? at h
                split at h <;> simp_all
              all_goals
                rename_i heq
                cases heq
                simp [compareOp?] at h

/-- An operator that is known by its first token. -/
def ByToken {β : Type} (op? : List Token → Option (β × List Token)) : Prop :=
  ∀ {ts rest : List Token} {op : β}, op? ts = some (op, rest) →
    ∃ t, ts = t :: rest ∧ ∀ rest', op? (t :: rest') = some (op, rest')

theorem ByToken.none {β : Type} {op? : List Token → Option (β × List Token)} (hop : ByToken op?)
    {rest rest' : List Token} (h : op? rest = none) (hhead : rest'.head? = rest.head?) :
    op? rest' = none := by
  cases hop' : op? rest' with
  | none => rfl
  | some p =>
      obtain ⟨t, rfl, hall⟩ := hop hop'
      cases rest with
      | nil => simp at hhead
      | cons u rest =>
          simp only [List.head?_cons, Option.some.injEq] at hhead
          rw [← hhead, hall] at h
          cases h

theorem byToken_sumOp? : ByToken sumOp? := by
  intro ts rest op h
  unfold sumOp? at h
  split at h
  case h_3 => cases h
  all_goals
    cases h
    exact ⟨_, rfl, fun _ => rfl⟩

theorem byToken_productOp? : ByToken productOp? := by
  intro ts rest op h
  unfold productOp? at h
  split at h
  case h_5 => cases h
  all_goals
    cases h
    exact ⟨_, rfl, fun _ => rfl⟩

theorem adjacentStrings_local {s text : Points} {ts rest : List Token}
    (h : adjacentStrings s ts = (text, rest)) :
    ∃ used, ts = used ++ rest ∧ ∀ {rest' : List Token}, rest'.head? = rest.head? →
      adjacentStrings s (used ++ rest') = (text, rest') := by
  fun_induction adjacentStrings s ts with
  | case1 s t more ih =>
      obtain ⟨used, rfl, hused⟩ := ih h
      exact ⟨.str t :: used, rfl, fun hr => by simp [adjacentStrings, hused hr]⟩
  | case2 s ts hne =>
      cases h
      refine ⟨[], rfl, fun {rest'} hr => ?_⟩
      cases rest' with
      | nil => rfl
      | cons t rest' =>
          cases rest with
          | nil => simp at hr
          | cons u rest =>
              simp only [List.head?_cons, Option.some.injEq] at hr
              subst hr
              have hne' : ∀ t' more, t :: rest' = .str t' :: more → False := by
                rintro t' more heq
                cases heq
                exact hne t' rest rfl
              rw [List.nil_append, adjacentStrings.eq_2 _ _ hne']

theorem startsExpr_congr {ts ts' : List Token} (h : ts'.head? = ts.head?) :
    startsExpr ts' = startsExpr ts := by
  cases ts with
  | nil =>
      cases ts' with
      | nil => rfl
      | cons => simp at h
  | cons t ts =>
      cases ts' with
      | nil => simp at h
      | cons u ts' =>
          simp only [List.head?_cons, Option.some.injEq] at h
          subst h
          cases u <;> rfl

/-- What the parts of expressions are with some fuel, they are with some other. -/
structure ExprsCarry (fuel fuel' : Nat) : Prop where
  expr (level : Level) : Carries (parseExpr fuel level) (parseExpr fuel' level)
  comparisons : Carries (parseComparisons fuel) (parseComparisons fuel')
  sum (a : Expr) : Carries (parseSum fuel a) (parseSum fuel' a)
  product (a : Expr) : Carries (parseProduct fuel a) (parseProduct fuel' a)
  trailers (e : Expr) : Carries (parseTrailers fuel e) (parseTrailers fuel' e)
  atom : Carries (parseAtom fuel) (parseAtom fuel')
  exprs : Carries (parseExprs fuel) (parseExprs fuel')
  tupleTail : Carries (parseTupleTail fuel) (parseTupleTail fuel')
  items (close : String) : Carries (parseItems fuel close) (parseItems fuel' close)
  entries : Carries (parseEntries fuel) (parseEntries fuel')

theorem expectOp_eq_ok {s : String} {ts rest : List Token} :
    expectOp s ts = .ok rest ↔ ts = .op s :: rest := by
  unfold expectOp
  split
  · split_ifs <;> simp_all
  · simp_all

theorem expectKeyword_eq_ok {s : String} {ts rest : List Token} :
    expectKeyword s ts = .ok rest ↔ ts = .keyword s :: rest := by
  unfold expectKeyword
  split
  · split_ifs <;> simp_all
  · simp_all

@[simp] theorem expectOp_cons (s : String) (rest : List Token) :
    expectOp s (.op s :: rest) = .ok rest := expectOp_eq_ok.mpr rfl

@[simp] theorem expectKeyword_cons (s : String) (rest : List Token) :
    expectKeyword s (.keyword s :: rest) = .ok rest := expectKeyword_eq_ok.mpr rfl

theorem expectOp_error {s : String} {ts ts' : List Token} {stop : Stop}
    (h : expectOp s ts = .error stop) (hhead : ts'.head? = ts.head?) :
    ∃ stop', expectOp s ts' = .error stop' := by
  cases h' : expectOp s ts' with
  | error stop' => exact ⟨stop', rfl⟩
  | ok rest' =>
      rw [expectOp_eq_ok.mp h'] at hhead
      cases ts with
      | nil => simp at hhead
      | cons t ts =>
          simp only [List.head?_cons, Option.some.injEq] at hhead
          simp [← hhead] at h

namespace ExprsCarry

variable {fuel fuel' : Nat}

attribute [local simp] parseExpr parseComparisons parseSum parseProduct parseTrailers parseAtom
  parseExprs parseTupleTail parseItems parseEntries

theorem conditional (ih : ExprsCarry fuel fuel') :
    Carries (parseExpr (fuel + 1) .conditional) (parseExpr (fuel' + 1) .conditional) := by
  intro ts rest a h
  simp only [parseExpr, bind_eq_ok, Prod.exists] at h
  obtain ⟨e, r, he, h⟩ := h
  obtain ⟨u, rfl, hu⟩ := ih.expr _ he
  split at h
  · simp only [bind_eq_ok, Prod.exists, expectKeyword_eq_ok, pure_eq_ok, Except.ok.injEq,
      Prod.mk.injEq] at h
    obtain ⟨test, r, htest, _, rfl, other, r, hother, rfl, rfl⟩ := h
    obtain ⟨v, rfl, hv⟩ := ih.expr _ htest
    obtain ⟨w, rfl, hw⟩ := ih.expr _ hother
    refine ⟨u ++ .keyword "if" :: v ++ .keyword "else" :: w, by simp, fun hr => ?_⟩
    simp [hu, hv, hw, hr]
  · cases h
    refine ⟨u, rfl, fun hr => ?_⟩
    have hne := hr.ne_cons ‹_›
    simp [hu, hr]

theorem either (ih : ExprsCarry fuel fuel') :
    Carries (parseExpr (fuel + 1) .either) (parseExpr (fuel' + 1) .either) := by
  intro ts rest a h
  simp only [parseExpr, bind_eq_ok, Prod.exists] at h
  obtain ⟨x, r, hx, h⟩ := h
  obtain ⟨u, rfl, hu⟩ := ih.expr _ hx
  split at h
  · simp only [bind_eq_ok, Prod.exists, pure_eq_ok, Except.ok.injEq, Prod.mk.injEq] at h
    obtain ⟨y, r, hy, rfl, rfl⟩ := h
    obtain ⟨v, rfl, hv⟩ := ih.expr _ hy
    refine ⟨u ++ .keyword "or" :: v, by simp, fun hr => ?_⟩
    simp [hu, hv, hr]
  · cases h
    refine ⟨u, rfl, fun hr => ?_⟩
    have hne := hr.ne_cons ‹_›
    simp [hu, hr]

theorem both (ih : ExprsCarry fuel fuel') :
    Carries (parseExpr (fuel + 1) .both) (parseExpr (fuel' + 1) .both) := by
  intro ts rest a h
  simp only [parseExpr, bind_eq_ok, Prod.exists] at h
  obtain ⟨x, r, hx, h⟩ := h
  obtain ⟨u, rfl, hu⟩ := ih.expr _ hx
  split at h
  · simp only [bind_eq_ok, Prod.exists, pure_eq_ok, Except.ok.injEq, Prod.mk.injEq] at h
    obtain ⟨y, r, hy, rfl, rfl⟩ := h
    obtain ⟨v, rfl, hv⟩ := ih.expr _ hy
    refine ⟨u ++ .keyword "and" :: v, by simp, fun hr => ?_⟩
    simp [hu, hv, hr]
  · cases h
    refine ⟨u, rfl, fun hr => ?_⟩
    have hne := hr.ne_cons ‹_›
    simp [hu, hr]

theorem negation (ih : ExprsCarry fuel fuel') :
    Carries (parseExpr (fuel + 1) .negation) (parseExpr (fuel' + 1) .negation) := by
  intro ts rest a h
  simp only [parseExpr] at h
  split at h
  · simp only [bind_eq_ok, Prod.exists, pure_eq_ok, Except.ok.injEq, Prod.mk.injEq] at h
    obtain ⟨e, r, he, rfl, rfl⟩ := h
    obtain ⟨u, rfl, hu⟩ := ih.expr _ he
    exact ⟨.keyword "not" :: u, rfl, fun hr => by simp [hu, hr]⟩
  · obtain ⟨u, rfl, hu⟩ := ih.expr _ h
    refine ⟨u, rfl, fun hr => ?_⟩
    have hne := (hr.append u).ne_cons ‹_›
    simp [hu, hr]

theorem comparison (ih : ExprsCarry fuel fuel') :
    Carries (parseExpr (fuel + 1) .comparison) (parseExpr (fuel' + 1) .comparison) := by
  intro ts rest a h
  simp only [parseExpr, bind_eq_ok, Prod.exists] at h
  obtain ⟨first, r, hfirst, others, r', hothers, h⟩ := h
  obtain ⟨u, rfl, hu⟩ := ih.expr _ hfirst
  obtain ⟨v, rfl, hv⟩ := ih.comparisons hothers
  refine ⟨u ++ v, ?_⟩
  cases others with
  | nil | cons =>
      cases h
      exact ⟨by simp, fun hr => by simp [hu, hv, hr, Alike.append]⟩

theorem sumLevel (ih : ExprsCarry fuel fuel') :
    Carries (parseExpr (fuel + 1) .sum) (parseExpr (fuel' + 1) .sum) := by
  intro ts rest a h
  simp only [parseExpr, bind_eq_ok, Prod.exists] at h
  obtain ⟨x, r, hx, h⟩ := h
  obtain ⟨u, rfl, hu⟩ := ih.expr _ hx
  obtain ⟨v, rfl, hv⟩ := ih.sum _ h
  exact ⟨u ++ v, by simp, fun hr => by simp [hu, hv, hr, Alike.append]⟩

theorem productLevel (ih : ExprsCarry fuel fuel') :
    Carries (parseExpr (fuel + 1) .product) (parseExpr (fuel' + 1) .product) := by
  intro ts rest a h
  simp only [parseExpr, bind_eq_ok, Prod.exists] at h
  obtain ⟨x, r, hx, h⟩ := h
  obtain ⟨u, rfl, hu⟩ := ih.expr _ hx
  obtain ⟨v, rfl, hv⟩ := ih.product _ h
  exact ⟨u ++ v, by simp, fun hr => by simp [hu, hv, hr, Alike.append]⟩

theorem sign (ih : ExprsCarry fuel fuel') :
    Carries (parseExpr (fuel + 1) .sign) (parseExpr (fuel' + 1) .sign) := by
  intro ts rest a h
  simp only [parseExpr] at h
  split at h
  · simp only [bind_eq_ok, Prod.exists, pure_eq_ok, Except.ok.injEq, Prod.mk.injEq] at h
    obtain ⟨e, r, he, rfl, rfl⟩ := h
    obtain ⟨u, rfl, hu⟩ := ih.expr _ he
    exact ⟨.op "+" :: u, rfl, fun hr => by simp [hu, hr]⟩
  · simp only [bind_eq_ok, Prod.exists, pure_eq_ok, Except.ok.injEq, Prod.mk.injEq] at h
    obtain ⟨e, r, he, rfl, rfl⟩ := h
    obtain ⟨u, rfl, hu⟩ := ih.expr _ he
    exact ⟨.op "-" :: u, rfl, fun hr => by simp [hu, hr]⟩
  · rename_i hplus hminus
    obtain ⟨u, rfl, hu⟩ := ih.expr _ h
    refine ⟨u, rfl, fun hr => ?_⟩
    have hplus := (hr.append u).ne_cons hplus
    have hminus := (hr.append u).ne_cons hminus
    simp [hu, hr]

theorem power (ih : ExprsCarry fuel fuel') :
    Carries (parseExpr (fuel + 1) .power) (parseExpr (fuel' + 1) .power) := by
  intro ts rest a h
  simp only [parseExpr, bind_eq_ok, Prod.exists] at h
  obtain ⟨atom, r, hatom, x, r', hx, h⟩ := h
  obtain ⟨u, rfl, hu⟩ := ih.atom hatom
  obtain ⟨v, rfl, hv⟩ := ih.trailers _ hx
  split at h
  · simp only [bind_eq_ok, Prod.exists, pure_eq_ok, Except.ok.injEq, Prod.mk.injEq] at h
    obtain ⟨y, r, hy, rfl, rfl⟩ := h
    obtain ⟨w, rfl, hw⟩ := ih.expr _ hy
    refine ⟨u ++ v ++ .op "**" :: w, by simp, fun hr => ?_⟩
    simp [hu, hv, hw, hr, Alike.append]
  · cases h
    refine ⟨u ++ v, by simp, fun hr => ?_⟩
    have hne := hr.ne_cons ‹_›
    simp [hu, hv, hr, Alike.append]

theorem comparisonsStep (ih : ExprsCarry fuel fuel') :
    Carries (parseComparisons (fuel + 1)) (parseComparisons (fuel' + 1)) := by
  intro ts rest a h
  simp only [parseComparisons] at h
  split at h
  · rename_i hnone
    cases h
    exact ⟨[], rfl, fun hr => by simp [compareOp?_none hnone hr]⟩
  · rename_i op r hop
    simp only [bind_eq_ok, Prod.exists, pure_eq_ok, Except.ok.injEq, Prod.mk.injEq] at h
    obtain ⟨e, r', he, more, r'', hmore, rfl, rfl⟩ := h
    obtain ⟨u, rfl, hu⟩ := compareOp?_local hop
    obtain ⟨v, rfl, hv⟩ := ih.expr _ he
    obtain ⟨w, rfl, hw⟩ := ih.comparisons hmore
    refine ⟨u ++ v ++ w, by simp, fun hr => ?_⟩
    have hop := hu _ ((hr.append w).append v)
    simp [hop, hv, hw, hr, Alike.append]

theorem sumStep (ih : ExprsCarry fuel fuel') (x : Expr) :
    Carries (parseSum (fuel + 1) x) (parseSum (fuel' + 1) x) := by
  intro ts rest a h
  simp only [parseSum] at h
  split at h
  · rename_i hnone
    cases h
    exact ⟨[], rfl, fun hr => by simp [byToken_sumOp?.none hnone hr.head]⟩
  · rename_i op r hop
    simp only [bind_eq_ok, Prod.exists] at h
    obtain ⟨y, r', hy, h⟩ := h
    obtain ⟨t, rfl, hall⟩ := byToken_sumOp? hop
    obtain ⟨u, rfl, hu⟩ := ih.expr _ hy
    obtain ⟨v, rfl, hv⟩ := ih.sum _ h
    refine ⟨t :: u ++ v, by simp, fun hr => ?_⟩
    simp [hall, hu, hv, hr, Alike.append]

theorem productStep (ih : ExprsCarry fuel fuel') (x : Expr) :
    Carries (parseProduct (fuel + 1) x) (parseProduct (fuel' + 1) x) := by
  intro ts rest a h
  simp only [parseProduct] at h
  split at h
  · rename_i hnone
    cases h
    exact ⟨[], rfl, fun hr => by simp [byToken_productOp?.none hnone hr.head]⟩
  · rename_i op r hop
    simp only [bind_eq_ok, Prod.exists] at h
    obtain ⟨y, r', hy, h⟩ := h
    obtain ⟨t, rfl, hall⟩ := byToken_productOp? hop
    obtain ⟨u, rfl, hu⟩ := ih.expr _ hy
    obtain ⟨v, rfl, hv⟩ := ih.product _ h
    refine ⟨t :: u ++ v, by simp, fun hr => ?_⟩
    simp [hall, hu, hv, hr, Alike.append]

theorem trailersStep (ih : ExprsCarry fuel fuel') (e : Expr) :
    Carries (parseTrailers (fuel + 1) e) (parseTrailers (fuel' + 1) e) := by
  intro ts rest a h
  simp only [parseTrailers] at h
  split at h
  · obtain ⟨u, rfl, hu⟩ := ih.trailers _ h
    exact ⟨.op "." :: .name _ :: u, rfl, fun hr => by simp [hu, hr]⟩
  · cases h
  · simp only [bind_eq_ok, Prod.exists] at h
    obtain ⟨args, r, hargs, h⟩ := h
    obtain ⟨u, rfl, hu⟩ := ih.items _ hargs
    obtain ⟨v, rfl, hv⟩ := ih.trailers _ h
    refine ⟨.op "(" :: u ++ v, by simp, fun hr => ?_⟩
    simp [hu, hv, hr, Alike.append]
  · simp only [bind_eq_ok, Prod.exists, expectOp_eq_ok] at h
    obtain ⟨key, r, hkey, r', rfl, h⟩ := h
    obtain ⟨u, rfl, hu⟩ := ih.exprs hkey
    obtain ⟨v, rfl, hv⟩ := ih.trailers _ h
    refine ⟨.op "[" :: u ++ .op "]" :: v, by simp, fun hr => ?_⟩
    simp [hu, hv, hr]
  · rename_i _ hdot hcall hindex
    cases h
    refine ⟨[], rfl, fun hr => ?_⟩
    have hdot := hr.ne_cons hdot
    have hcall := hr.ne_cons hcall
    have hindex := hr.ne_cons hindex
    have hmember : ∀ s more, _ = Token.op "." :: .name s :: more → False := fun _ _ => hdot _
    simp

theorem atomStep (ih : ExprsCarry fuel fuel') :
    Carries (parseAtom (fuel + 1)) (parseAtom (fuel' + 1)) := by
  intro ts rest a h
  simp only [parseAtom] at h
  split at h
  case h_4 s more =>
    cases h
    obtain ⟨u, hu, hall⟩ := adjacentStrings_local (Prod.eta (adjacentStrings s more)).symm
    refine ⟨.str s :: u, by rw [List.cons_append, ← hu], fun hr => ?_⟩
    simp [hall hr.head]
  case h_8 =>
    cases h
    exact ⟨[_, _], rfl, fun _ => rfl⟩
  case h_9 more hempty =>
    simp only [bind_eq_ok, Prod.exists, expectOp_eq_ok, pure_eq_ok, Except.ok.injEq,
      Prod.mk.injEq] at h
    obtain ⟨e, r, he, r', rfl, rfl, rfl⟩ := h
    obtain ⟨u, rfl, hu⟩ := ih.exprs he
    refine ⟨.op "(" :: u ++ [.op ")"], by simp, fun {rest'} hr => ?_⟩
    have hne := ((hr.cons (.op ")")).append u).ne_cons hempty
    simp [hu]
  case h_10 =>
    simp only [bind_eq_ok, Prod.exists, pure_eq_ok, Except.ok.injEq, Prod.mk.injEq] at h
    obtain ⟨items, r, hitems, rfl, rfl⟩ := h
    obtain ⟨u, rfl, hu⟩ := ih.items _ hitems
    exact ⟨.op "[" :: u, rfl, fun hr => by simp [hu, hr]⟩
  case h_11 =>
    simp only [bind_eq_ok, Prod.exists, pure_eq_ok, Except.ok.injEq, Prod.mk.injEq] at h
    obtain ⟨entries, r, hentries, rfl, rfl⟩ := h
    obtain ⟨u, rfl, hu⟩ := ih.entries hentries
    exact ⟨.op "\x7b" :: u, rfl, fun hr => by simp [hu, hr]⟩
  case h_12 => cases h
  all_goals
    cases h
    exact ⟨[_], rfl, fun _ => rfl⟩

theorem exprsStep (ih : ExprsCarry fuel fuel') :
    Carries (parseExprs (fuel + 1)) (parseExprs (fuel' + 1)) := by
  intro ts rest a h
  simp only [parseExprs, bind_eq_ok, Prod.exists] at h
  obtain ⟨e, r, he, h⟩ := h
  obtain ⟨u, rfl, hu⟩ := ih.expr _ he
  split at h
  · simp only [bind_eq_ok, Prod.exists, pure_eq_ok, Except.ok.injEq, Prod.mk.injEq] at h
    obtain ⟨more, r, hmore, rfl, rfl⟩ := h
    obtain ⟨v, rfl, hv⟩ := ih.tupleTail hmore
    refine ⟨u ++ .op "," :: v, by simp, fun hr => ?_⟩
    simp [hu, hv, hr]
  · cases h
    refine ⟨u, rfl, fun hr => ?_⟩
    have hne := hr.ne_cons ‹_›
    simp [hu, hr]

theorem tupleTailStep (ih : ExprsCarry fuel fuel') :
    Carries (parseTupleTail (fuel + 1)) (parseTupleTail (fuel' + 1)) := by
  intro ts rest a h
  simp only [parseTupleTail] at h
  split_ifs at h with hstarts
  · simp only [bind_eq_ok, Prod.exists] at h
    obtain ⟨e, r, he, h⟩ := h
    obtain ⟨u, rfl, hu⟩ := ih.expr _ he
    split at h
    · simp only [bind_eq_ok, Prod.exists, pure_eq_ok, Except.ok.injEq, Prod.mk.injEq] at h
      obtain ⟨more, r, hmore, rfl, rfl⟩ := h
      obtain ⟨v, rfl, hv⟩ := ih.tupleTail hmore
      refine ⟨u ++ .op "," :: v, by simp, fun {rest'} hr => ?_⟩
      have hstarts : startsExpr (u ++ .op "," :: (v ++ rest')) = true := by
        rw [← hstarts, startsExpr_congr (((hr.append v).cons _).append u).head]
      simp [hstarts, hu, hv, hr]
    · cases h
      refine ⟨u, rfl, fun {rest'} hr => ?_⟩
      have hne := hr.ne_cons ‹_›
      have hstarts : startsExpr (u ++ rest') = true := by
        rw [← hstarts, startsExpr_congr (hr.append u).head]
      simp [hstarts, hu, hr]
  · cases h
    refine ⟨[], rfl, fun hr => ?_⟩
    simp [startsExpr_congr hr.head, hstarts]

theorem itemsStep (ih : ExprsCarry fuel fuel') (close : String) :
    Carries (parseItems (fuel + 1) close) (parseItems (fuel' + 1) close) := by
  intro ts rest a h
  simp only [parseItems] at h
  split at h
  · rename_i hclose
    cases h
    obtain rfl := expectOp_eq_ok.mp hclose
    exact ⟨[.op close], rfl, fun _ => by simp⟩
  · rename_i stop hclose
    simp only [bind_eq_ok, Prod.exists] at h
    obtain ⟨e, r, he, h⟩ := h
    obtain ⟨u, rfl, hu⟩ := ih.expr _ he
    split at h
    · simp only [bind_eq_ok, Prod.exists, pure_eq_ok, Except.ok.injEq, Prod.mk.injEq] at h
      obtain ⟨more, r, hmore, rfl, rfl⟩ := h
      obtain ⟨v, rfl, hv⟩ := ih.items _ hmore
      refine ⟨u ++ .op "," :: v, by simp, fun {rest'} hr => ?_⟩
      obtain ⟨stop', hclose'⟩ := expectOp_error hclose (((hr.append v).cons _).append u).head
      simp [hclose', hu, hv, hr]
    · rename_i hcomma
      simp only [bind_eq_ok, expectOp_eq_ok, pure_eq_ok, Except.ok.injEq, Prod.mk.injEq] at h
      obtain ⟨r', rfl, rfl, rfl⟩ := h
      refine ⟨u ++ [.op close], by simp, fun {rest'} hr => ?_⟩
      obtain ⟨stop', hclose'⟩ := expectOp_error hclose ((hr.cons (.op close)).append u).head
      have hne := (hr.cons (.op close)).ne_cons hcomma
      simp [hclose', hu]

theorem entriesStep (ih : ExprsCarry fuel fuel') :
    Carries (parseEntries (fuel + 1)) (parseEntries (fuel' + 1)) := by
  intro ts rest a h
  simp only [parseEntries] at h
  split at h
  · cases h
    exact ⟨[.op "\x7d"], rfl, fun _ => by simp⟩
  · rename_i hclose
    simp only [bind_eq_ok, Prod.exists, expectOp_eq_ok] at h
    obtain ⟨key, r, hkey, r', rfl, value, r'', hvalue, h⟩ := h
    obtain ⟨u, rfl, hu⟩ := ih.expr _ hkey
    obtain ⟨v, rfl, hv⟩ := ih.expr _ hvalue
    split at h
    · simp only [bind_eq_ok, Prod.exists, pure_eq_ok, Except.ok.injEq, Prod.mk.injEq] at h
      obtain ⟨more, r, hmore, rfl, rfl⟩ := h
      obtain ⟨w, rfl, hw⟩ := ih.entries hmore
      refine ⟨u ++ .op ":" :: v ++ .op "," :: w, by simp, fun {rest'} hr => ?_⟩
      have hclose := (((((hr.append w).cons _).append v).cons _).append u).ne_cons hclose
      simp [hu, hv, hw, hr]
    · rename_i hcomma
      simp only [bind_eq_ok, expectOp_eq_ok, pure_eq_ok, Except.ok.injEq, Prod.mk.injEq] at h
      obtain ⟨r', rfl, rfl, rfl⟩ := h
      refine ⟨u ++ .op ":" :: v ++ [.op "\x7d"], by simp, fun {rest'} hr => ?_⟩
      have hclose := ((((hr.cons _).append v).cons _).append u).ne_cons hclose
      simp [hu, hv]

end ExprsCarry

/-- More fuel and another rest that looks the same make no difference to any part of an
expression. -/
theorem exprsCarry {fuel fuel' : Nat} (h : fuel ≤ fuel') : ExprsCarry fuel fuel' := by
  induction fuel generalizing fuel' with
  | zero =>
      constructor
      all_goals
        intros
        intro ts rest a h
        cases h
  | succ fuel ih =>
      obtain ⟨fuel', rfl⟩ : ∃ f, fuel' = f + 1 := ⟨fuel' - 1, by omega⟩
      have ih := ih (Nat.le_of_succ_le_succ h)
      refine ⟨fun level => ?_, ih.comparisonsStep, ih.sumStep, ih.productStep, ih.trailersStep,
        ih.atomStep, ih.exprsStep, ih.tupleTailStep, ih.itemsStep, ih.entriesStep⟩
      cases level with
      | conditional => exact ih.conditional
      | either => exact ih.either
      | both => exact ih.both
      | negation => exact ih.negation
      | comparison => exact ih.comparison
      | sum => exact ih.sumLevel
      | product => exact ih.productLevel
      | sign => exact ih.sign
      | power => exact ih.power

end BlockWorkbench.Script
