import BlockWorkbench.Proofs.Script.Parsing

/-!
What a statement depends on: the tokens of its own lines, and whether an `else` follows. So a text
of whole statements is read before others as it is read alone.
-/

namespace BlockWorkbench.Script

/-- Tokens that end with the end of a line or of a block. -/
def Ended (ts : List Token) : Prop := ts.getLast? = some .newline ∨ ts.getLast? = some .dedent

theorem Ended.append {ts : List Token} (h : Ended ts) (us : List Token) : Ended (us ++ ts) := by
  unfold Ended at h ⊢
  obtain h | h := h <;> simp [List.getLast?_append, h]

theorem Ended.head {ts : List Token} (h : Ended ts) (us us' : List Token) :
    (ts ++ us').head? = (ts ++ us).head? := by
  cases ts with
  | nil => simp [Ended] at h
  | cons => rfl

theorem Ended.alike {ts : List Token} (h : Ended ts) (us us' : List Token) :
    Alike (ts ++ us) (ts ++ us') := by
  match ts with
  | [] => simp [Ended] at h
  | [t] =>
      refine ⟨rfl, fun hnot => ?_⟩
      cases hnot
      simp [Ended] at h
  | _ :: _ :: _ => exact ⟨rfl, fun _ => rfl⟩

/-- Tokens that go on with a statement that seems to be over. -/
def Continues (ts : List Token) : Prop :=
  ts.head? = some (.keyword "else") ∨ ts.head? = some (.keyword "elif")

/-- Two rests that a statement which ends before them cannot tell apart. -/
def Follows (rest rest' : List Token) : Prop :=
  rest'.head? = rest.head? ∨ ¬ Continues rest ∧ ¬ Continues rest'

theorem Follows.ne_keyword {rest rest' : List Token} (h : Follows rest rest') {s : String}
    (hs : s = "else" ∨ s = "elif") (hne : ∀ more, rest = .keyword s :: more → False) :
    ∀ more, rest' = .keyword s :: more → False := by
  rintro more rfl
  obtain hhead | ⟨-, hnot⟩ := h
  · exact ne_cons_of_head hhead hne more rfl
  · apply hnot
    obtain rfl | rfl := hs
    · exact .inl rfl
    · exact .inr rfl

@[simp] theorem follows_cons (t : Token) (rest rest' : List Token) :
    Follows (t :: rest) (t :: rest') := .inl rfl

theorem Follows.append {rest rest' : List Token} (h : Follows rest rest') (used : List Token) :
    Follows (used ++ rest) (used ++ rest') := by
  cases used with
  | nil => exact h
  | cons => exact .inl rfl

/-- Lines that `p` reads, `q` reads in the same way before any rest that looks the same. -/
def CarriesLines {α : Type} (p q : List Token → Except Stop (α × List Token)) : Prop :=
  ∀ {ts rest : List Token} {a : α}, p ts = .ok (a, rest) →
    ∃ used, Ended used ∧ ts = used ++ rest ∧ ∀ {rest' : List Token}, Follows rest rest' →
      q (used ++ rest') = .ok (a, rest')

@[simp] theorem targetAt_some {α : Type} (ts : List Token) (target : α) :
    targetAt ts (some target) = .ok target := rfl

theorem targetAt_eq_ok {α : Type} {ts : List Token} {target? : Option α} {target : α} :
    targetAt ts target? = .ok target ↔ target? = some target := by
  cases target? <;> simp [targetAt]

theorem byToken_augmentOp? : ByToken augmentOp? := by
  intro ts rest op h
  unfold augmentOp? at h
  split at h
  case h_8 => cases h
  all_goals
    cases h
    exact ⟨_, rfl, fun _ => rfl⟩

section Lines

variable {exprFuel exprFuel' : Nat}

theorem assignedCarries (hexpr : exprFuel ≤ exprFuel') {fuel fuel' : Nat} (h : fuel ≤ fuel')
    (targets : List Expr) :
    Carries (parseAssigned exprFuel fuel targets) (parseAssigned exprFuel' fuel' targets) := by
  induction fuel generalizing fuel' targets with
  | zero =>
      intro ts rest a h
      cases h
  | succ fuel ih =>
      obtain ⟨fuel', rfl⟩ : ∃ f, fuel' = f + 1 := ⟨fuel' - 1, by omega⟩
      intro ts rest a ha
      simp only [parseAssigned, bind_eq_ok, Prod.exists] at ha
      obtain ⟨e, r, he, ha⟩ := ha
      obtain ⟨u, rfl, hu⟩ := (exprsCarry hexpr).exprs he
      split at ha
      · obtain ⟨v, rfl, hv⟩ := ih (Nat.le_of_succ_le_succ h) _ ha
        refine ⟨u ++ .op "=" :: v, by simp, fun hr => ?_⟩
        simp [parseAssigned, hu, hv, hr]
      · cases ha
        refine ⟨u, rfl, fun hr => ?_⟩
        have hne := hr.ne_cons ‹_›
        simp [parseAssigned, hu, hr]

theorem exprStmtCarries (hexpr : exprFuel ≤ exprFuel') :
    Carries (parseExprStmt exprFuel) (parseExprStmt exprFuel') := by
  intro ts rest a h
  simp only [parseExprStmt, bind_eq_ok, Prod.exists] at h
  obtain ⟨e, r, he, h⟩ := h
  obtain ⟨u, rfl, hu⟩ := (exprsCarry hexpr).exprs he
  split at h
  · simp only [bind_eq_ok, Prod.exists, targetAt_eq_ok, pure_eq_ok, Except.ok.injEq,
      Prod.mk.injEq] at h
    obtain ⟨targets, value, r, hassigned, found, hfound, rfl, rfl⟩ := h
    obtain ⟨v, rfl, hv⟩ := assignedCarries hexpr hexpr [e] hassigned
    refine ⟨u ++ .op "=" :: v, by simp, fun hr => ?_⟩
    simp [parseExprStmt, hu, hv, hr, hfound]
  · rename_i hassign
    split at h
    · rename_i op r' hop
      simp only [bind_eq_ok, Prod.exists, targetAt_eq_ok, pure_eq_ok, Except.ok.injEq,
        Prod.mk.injEq] at h
      obtain ⟨target, htarget, value, r, hvalue, rfl, rfl⟩ := h
      obtain ⟨t, rfl, hall⟩ := byToken_augmentOp? hop
      obtain ⟨v, rfl, hv⟩ := (exprsCarry hexpr).exprs hvalue
      refine ⟨u ++ t :: v, by simp, fun hr => ?_⟩
      have hcons := (hr.append v).cons t
      have hne := hcons.ne_cons hassign
      simp [parseExprStmt, hu hcons, hv, hr, htarget, hall]
    · rename_i hop
      cases h
      refine ⟨u, rfl, fun hr => ?_⟩
      have hne := hr.ne_cons hassign
      simp [parseExprStmt, hu, hr, byToken_augmentOp?.none hop hr.head]

theorem smallCarries (hexpr : exprFuel ≤ exprFuel') :
    Carries (parseSmall exprFuel) (parseSmall exprFuel') := by
  intro ts rest a h
  simp only [parseSmall] at h
  split at h
  case h_4 =>
    split_ifs at h with hstarts
    · simp only [bind_eq_ok, Prod.exists, pure_eq_ok, Except.ok.injEq, Prod.mk.injEq] at h
      obtain ⟨e, r, he, rfl, rfl⟩ := h
      obtain ⟨u, rfl, hu⟩ := (exprsCarry hexpr).exprs he
      refine ⟨.keyword "return" :: u, rfl, fun {rest'} hr => ?_⟩
      have hstarts' := (startsExpr_congr (hr.append u).head).trans hstarts
      simp [parseSmall, hstarts', hu, hr]
    · cases h
      refine ⟨[_], rfl, fun hr => ?_⟩
      simp [parseSmall, startsExpr_congr hr.head, hstarts]
  case h_5 =>
    split_ifs at h with hstarts
    · simp only [bind_eq_ok, Prod.exists, pure_eq_ok, Except.ok.injEq, Prod.mk.injEq] at h
      obtain ⟨e, r, he, rfl, rfl⟩ := h
      obtain ⟨u, rfl, hu⟩ := (exprsCarry hexpr).expr _ he
      refine ⟨.keyword "raise" :: u, rfl, fun {rest'} hr => ?_⟩
      have hstarts' := (startsExpr_congr (hr.append u).head).trans hstarts
      simp [parseSmall, hstarts', hu, hr]
    · cases h
      refine ⟨[_], rfl, fun hr => ?_⟩
      simp [parseSmall, startsExpr_congr hr.head, hstarts]
  -- An expression is read as a statement when no keyword stands ahead, and none does before the
  -- other rest either.
  case h_6 =>
    rename_i hpass hbreak hcontinue hreturn hraise
    obtain ⟨u, rfl, hu⟩ := exprStmtCarries hexpr h
    refine ⟨u, rfl, fun hr => ?_⟩
    have hpass := (hr.append u).ne_cons hpass
    have hbreak := (hr.append u).ne_cons hbreak
    have hcontinue := (hr.append u).ne_cons hcontinue
    have hreturn := (hr.append u).ne_cons hreturn
    have hraise := (hr.append u).ne_cons hraise
    simp [parseSmall, hu, hr]
  all_goals
    cases h
    exact ⟨[_], rfl, fun _ => rfl⟩

theorem lineCarries (hexpr : exprFuel ≤ exprFuel') {fuel fuel' : Nat} (h : fuel ≤ fuel') :
    CarriesLines (parseLine exprFuel fuel) (parseLine exprFuel' fuel') := by
  induction fuel generalizing fuel' with
  | zero =>
      intro ts rest a h
      cases h
  | succ fuel ih =>
      obtain ⟨fuel', rfl⟩ : ∃ f, fuel' = f + 1 := ⟨fuel' - 1, by omega⟩
      intro ts rest a ha
      simp only [parseLine, bind_eq_ok, Prod.exists] at ha
      obtain ⟨s, r, hs, ha⟩ := ha
      obtain ⟨u, rfl, hu⟩ := smallCarries hexpr hs
      split at ha
      · cases ha
        exact ⟨u ++ [.newline], by simp [Ended], by simp, fun _ => by simp [parseLine, hu]⟩
      · cases ha
        exact ⟨u ++ [.op ";", .newline], by simp [Ended], by simp,
          fun _ => by simp [parseLine, hu]⟩
      · rename_i hnewline
        simp only [bind_eq_ok, Prod.exists, pure_eq_ok, Except.ok.injEq, Prod.mk.injEq] at ha
        obtain ⟨more, r, hmore, rfl, rfl⟩ := ha
        obtain ⟨v, hended, rfl, hv⟩ := ih (Nat.le_of_succ_le_succ h) hmore
        refine ⟨u ++ [.op ";"] ++ v, hended.append _, by simp, fun {rest'} hr => ?_⟩
        have hne := ne_cons_of_head (hended.head r rest') hnewline
        simp [parseLine, hu, hv hr]
      · simp at ha

theorem paramsCarry (hexpr : exprFuel ≤ exprFuel') {fuel fuel' : Nat} (h : fuel ≤ fuel')
    (defaulted : Bool) :
    Carries (parseParams exprFuel fuel defaulted) (parseParams exprFuel' fuel' defaulted) := by
  induction fuel generalizing fuel' defaulted with
  | zero =>
      intro ts rest a h
      cases h
  | succ fuel ih =>
      obtain ⟨fuel', rfl⟩ : ∃ f, fuel' = f + 1 := ⟨fuel' - 1, by omega⟩
      intro ts rest a ha
      simp only [parseParams] at ha
      split at ha
      · cases ha
        exact ⟨[_], rfl, fun _ => by simp [parseParams]⟩
      · rename_i s r
        simp only [bind_eq_ok, Prod.exists] at ha
        obtain ⟨e, r, he, ha⟩ := ha
        obtain ⟨u, rfl, hu⟩ := (exprsCarry hexpr).expr _ he
        split at ha
        · simp only [bind_eq_ok, Prod.exists, pure_eq_ok, Except.ok.injEq, Prod.mk.injEq] at ha
          obtain ⟨more, r, hmore, rfl, rfl⟩ := ha
          obtain ⟨v, rfl, hv⟩ := ih (Nat.le_of_succ_le_succ h) _ hmore
          refine ⟨.name s :: .op "=" :: u ++ .op "," :: v, by simp, fun hr => ?_⟩
          simp [parseParams, hu, hv, hr]
        · rename_i hcomma
          simp only [bind_eq_ok, expectOp_eq_ok, pure_eq_ok, Except.ok.injEq, Prod.mk.injEq] at ha
          obtain ⟨r', rfl, rfl, rfl⟩ := ha
          refine ⟨.name s :: .op "=" :: u ++ [.op ")"], by simp, fun hr => ?_⟩
          simp [parseParams, hu]
      · rename_i s r hdefault
        split_ifs at ha with hdefaulted
        split at ha
        · simp only [bind_eq_ok, Prod.exists, pure_eq_ok, Except.ok.injEq, Prod.mk.injEq] at ha
          obtain ⟨more, r, hmore, rfl, rfl⟩ := ha
          obtain ⟨v, rfl, hv⟩ := ih (Nat.le_of_succ_le_succ h) _ hmore
          refine ⟨.name s :: .op "," :: v, by simp, fun hr => ?_⟩
          simp [parseParams, hv, hr, hdefaulted]
        · simp only [bind_eq_ok, expectOp_eq_ok, pure_eq_ok, Except.ok.injEq, Prod.mk.injEq] at ha
          obtain ⟨r', rfl, rfl, rfl⟩ := ha
          refine ⟨[.name s, .op ")"], by simp, fun hr => ?_⟩
          simp [parseParams, hdefaulted]
      · cases ha

theorem loopTargetCarries (hexpr : exprFuel ≤ exprFuel') {fuel fuel' : Nat} (h : fuel ≤ fuel') :
    Carries (parseLoopTarget exprFuel fuel) (parseLoopTarget exprFuel' fuel') := by
  induction fuel generalizing fuel' with
  | zero =>
      intro ts rest a h
      cases h
  | succ fuel ih =>
      obtain ⟨fuel', rfl⟩ : ∃ f, fuel' = f + 1 := ⟨fuel' - 1, by omega⟩
      intro ts rest a ha
      simp only [parseLoopTarget, bind_eq_ok, Prod.exists] at ha
      obtain ⟨atom, r, hatom, e, r', he, ha⟩ := ha
      obtain ⟨u, rfl, hu⟩ := (exprsCarry hexpr).atom hatom
      obtain ⟨v, rfl, hv⟩ := (exprsCarry hexpr).trailers _ he
      split at ha
      · cases ha
        refine ⟨u ++ v ++ [.op ","], by simp, fun {rest'} hr => ?_⟩
        obtain ⟨more, rfl⟩ := hr.exists_cons
        simp [parseLoopTarget, hu, hv, Alike.append]
      · rename_i hin
        simp only [bind_eq_ok, Prod.exists, pure_eq_ok, Except.ok.injEq, Prod.mk.injEq] at ha
        obtain ⟨more, several, r, hmore, rfl, rfl⟩ := ha
        obtain ⟨w, rfl, hw⟩ := ih (Nat.le_of_succ_le_succ h) hmore
        refine ⟨u ++ v ++ .op "," :: w, by simp, fun hr => ?_⟩
        have hne := (hr.append w).ne_cons hin
        simp [parseLoopTarget, hu, hv, hw, hr, Alike.append]
      · rename_i hcomma
        cases ha
        refine ⟨u ++ v, by simp, fun hr => ?_⟩
        have hcomma := hr.ne_cons hcomma
        have hin : ∀ more, _ = Token.op "," :: .keyword "in" :: more → False :=
          fun _ => hcomma _
        simp [parseLoopTarget, hu, hv, hr, Alike.append]

end Lines

/-- What is done otherwise may be nothing, and is else made of whole lines. -/
def CarriesElse (p q : List Token → Except Stop (List Stmt × List Token)) : Prop :=
  ∀ {ts rest : List Token} {a : List Stmt}, p ts = .ok (a, rest) →
    ∃ used, (used = [] ∨ Ended used) ∧ ts = used ++ rest ∧
      ∀ {rest' : List Token}, Follows rest rest' → q (used ++ rest') = .ok (a, rest')

theorem Ended.append_else {ts us : List Token} (h : Ended ts) (hus : us = [] ∨ Ended us) :
    Ended (ts ++ us) := by
  obtain rfl | hus := hus
  · rwa [List.append_nil]
  · exact hus.append ts

/-- What statements are with some fuel, they are with some other. -/
structure StmtsCarry (exprFuel exprFuel' fuel fuel' : Nat) : Prop where
  stmt : CarriesLines (parseStmt exprFuel fuel) (parseStmt exprFuel' fuel')
  branch : CarriesLines (parseBranch exprFuel fuel) (parseBranch exprFuel' fuel')
  orelse : CarriesElse (parseElse exprFuel fuel) (parseElse exprFuel' fuel')
  suite : CarriesLines (parseSuite exprFuel fuel) (parseSuite exprFuel' fuel')
  block : CarriesLines (parseBlock exprFuel fuel) (parseBlock exprFuel' fuel')

namespace StmtsCarry

variable {exprFuel exprFuel' fuel fuel' : Nat}

theorem stmtStep (ih : StmtsCarry exprFuel exprFuel' fuel fuel') (hexpr : exprFuel ≤ exprFuel') :
    CarriesLines (parseStmt exprFuel (fuel + 1)) (parseStmt exprFuel' (fuel' + 1)) := by
  intro ts rest a h
  simp only [parseStmt] at h
  split at h
  · rename_i s r
    simp only [bind_eq_ok, Prod.exists, expectOp_eq_ok, pure_eq_ok, Except.ok.injEq,
      Prod.mk.injEq] at h
    obtain ⟨r, rfl, params, r', hparams, body, r'', hbody, rfl, rfl⟩ := h
    obtain ⟨u, rfl, hu⟩ := paramsCarry hexpr hexpr _ hparams
    obtain ⟨v, hended, rfl, hv⟩ := ih.suite hbody
    refine ⟨.keyword "def" :: .name s :: .op "(" :: u ++ v, hended.append _, by simp,
      fun hr => ?_⟩
    simp [parseStmt, hu (hended.alike _ _), hv hr]
  · cases h
  · simp only [bind_eq_ok, Prod.exists, pure_eq_ok, Except.ok.injEq, Prod.mk.injEq] at h
    obtain ⟨s, r, hs, rfl, rfl⟩ := h
    obtain ⟨u, hended, rfl, hu⟩ := ih.branch hs
    exact ⟨[.keyword "if"] ++ u, hended.append _, rfl, fun hr => by simp [parseStmt, hu hr]⟩
  · simp only [bind_eq_ok, Prod.exists, targetAt_eq_ok, expectKeyword_eq_ok, pure_eq_ok,
      Except.ok.injEq, Prod.mk.injEq] at h
    obtain ⟨items, several, _, hitems, targets, htargets, _, rfl, e, _, he, body, _, hbody,
      orelse, _, horelse, rfl, rfl⟩ := h
    obtain ⟨u, rfl, hu⟩ := loopTargetCarries hexpr hexpr hitems
    obtain ⟨v, rfl, hv⟩ := (exprsCarry hexpr).exprs he
    obtain ⟨w, hended, rfl, hw⟩ := ih.suite hbody
    obtain ⟨x, hx, rfl, hall⟩ := ih.orelse horelse
    refine ⟨.keyword "for" :: u ++ .keyword "in" :: v ++ (w ++ x), (hended.append_else hx).append _,
      by simp, fun hr => ?_⟩
    simp [parseStmt, hu, hv (hended.alike _ _), hw (hr.append x), hall hr, htargets]
  · simp only [bind_eq_ok, Prod.exists, pure_eq_ok, Except.ok.injEq, Prod.mk.injEq] at h
    obtain ⟨test, r, htest, body, r', hbody, orelse, r'', horelse, rfl, rfl⟩ := h
    obtain ⟨u, rfl, hu⟩ := (exprsCarry hexpr).expr _ htest
    obtain ⟨w, hended, rfl, hw⟩ := ih.suite hbody
    obtain ⟨x, hx, rfl, hall⟩ := ih.orelse horelse
    refine ⟨.keyword "while" :: u ++ (w ++ x), (hended.append_else hx).append _, by simp,
      fun hr => ?_⟩
    simp [parseStmt, hu (hended.alike _ _), hw (hr.append x), hall hr]
  -- A line is read when no statement starts with a keyword ahead, which its first token tells.
  · rename_i hdef hdefOther hif hfor hwhile
    obtain ⟨u, hended, rfl, hu⟩ := lineCarries hexpr hexpr h
    refine ⟨u, hended, rfl, fun {rest'} hr => ?_⟩
    have hhead := hended.head rest rest'
    have hdefOther := ne_cons_of_head hhead hdefOther
    have hdef : ∀ s more, u ++ rest' = .keyword "def" :: .name s :: more → False :=
      fun _ _ => hdefOther _
    have hif := ne_cons_of_head hhead hif
    have hfor := ne_cons_of_head hhead hfor
    have hwhile := ne_cons_of_head hhead hwhile
    simp [parseStmt, hu hr]

theorem branchStep (ih : StmtsCarry exprFuel exprFuel' fuel fuel') (hexpr : exprFuel ≤ exprFuel') :
    CarriesLines (parseBranch exprFuel (fuel + 1)) (parseBranch exprFuel' (fuel' + 1)) := by
  intro ts rest a h
  simp only [parseBranch, bind_eq_ok, Prod.exists] at h
  obtain ⟨test, r, htest, body, r', hbody, h⟩ := h
  obtain ⟨u, rfl, hu⟩ := (exprsCarry hexpr).expr _ htest
  obtain ⟨v, hended, rfl, hv⟩ := ih.suite hbody
  split at h
  · simp only [bind_eq_ok, Prod.exists, pure_eq_ok, Except.ok.injEq, Prod.mk.injEq] at h
    obtain ⟨s, r, hs, rfl, rfl⟩ := h
    obtain ⟨w, hended', rfl, hw⟩ := ih.branch hs
    refine ⟨u ++ v ++ [.keyword "elif"] ++ w, hended'.append _, by simp, fun hr => ?_⟩
    simp [parseBranch, hu (hended.alike _ _), hv, hw hr]
  · rename_i hne
    simp only [bind_eq_ok, Prod.exists, pure_eq_ok, Except.ok.injEq, Prod.mk.injEq] at h
    obtain ⟨orelse, r, horelse, rfl, rfl⟩ := h
    obtain ⟨x, hx, rfl, hall⟩ := ih.orelse horelse
    refine ⟨u ++ (v ++ x), (hended.append_else hx).append _, by simp, fun hr => ?_⟩
    have hne := (hr.append x).ne_keyword (.inr rfl) hne
    simp [parseBranch, hu (hended.alike _ _), hv (hr.append x), hall hr]

theorem elseStep (ih : StmtsCarry exprFuel exprFuel' fuel fuel') :
    CarriesElse (parseElse exprFuel (fuel + 1)) (parseElse exprFuel' (fuel' + 1)) := by
  intro ts rest a h
  simp only [parseElse] at h
  split at h
  · obtain ⟨u, hended, rfl, hu⟩ := ih.suite h
    exact ⟨[.keyword "else"] ++ u, .inr (hended.append _), rfl,
      fun hr => by simp [parseElse, hu hr]⟩
  · cases h
    refine ⟨[], .inl rfl, rfl, fun hr => ?_⟩
    have hne := hr.ne_keyword (.inl rfl) ‹_›
    simp [parseElse]

theorem suiteStep (ih : StmtsCarry exprFuel exprFuel' fuel fuel') (hexpr : exprFuel ≤ exprFuel') :
    CarriesLines (parseSuite exprFuel (fuel + 1)) (parseSuite exprFuel' (fuel' + 1)) := by
  intro ts rest a h
  simp only [parseSuite, bind_eq_ok, expectOp_eq_ok] at h
  obtain ⟨r, rfl, h⟩ := h
  split at h
  · obtain ⟨u, hended, rfl, hu⟩ := ih.block h
    exact ⟨[.op ":", .newline, .indent] ++ u, hended.append _, rfl,
      fun hr => by simp [parseSuite, hu hr]⟩
  · cases h
  · cases h
  · rename_i hblock hfault hnewline
    obtain ⟨u, hended, rfl, hu⟩ := lineCarries hexpr hexpr h
    refine ⟨[.op ":"] ++ u, hended.append _, rfl, fun {rest'} hr => ?_⟩
    have hnewline := ne_cons_of_head (hended.head rest rest') hnewline
    have hblock : ∀ more, u ++ rest' = .newline :: .indent :: more → False := fun _ => hnewline _
    have hfault : ∀ f more, u ++ rest' = .newline :: .fault f :: more → False :=
      fun _ _ => hnewline _
    simp [parseSuite, hu hr]

theorem blockStep (ih : StmtsCarry exprFuel exprFuel' fuel fuel') :
    CarriesLines (parseBlock exprFuel (fuel + 1)) (parseBlock exprFuel' (fuel' + 1)) := by
  intro ts rest a h
  simp only [parseBlock, bind_eq_ok, Prod.exists] at h
  obtain ⟨s, r, hs, h⟩ := h
  obtain ⟨u, hended, rfl, hu⟩ := ih.stmt hs
  split at h
  · cases h
    exact ⟨u ++ [.dedent], by simp [Ended], by simp, fun _ => by simp [parseBlock, hu]⟩
  · rename_i hdedent
    simp only [bind_eq_ok, Prod.exists, pure_eq_ok, Except.ok.injEq, Prod.mk.injEq] at h
    obtain ⟨more, r, hmore, rfl, rfl⟩ := h
    obtain ⟨v, hended', rfl, hv⟩ := ih.block hmore
    refine ⟨u ++ v, hended'.append _, by simp, fun {rest'} hr => ?_⟩
    have hdedent := ne_cons_of_head (hended'.head r rest') hdedent
    simp [parseBlock, hu (hr.append v), hv hr]

end StmtsCarry

/-- More fuel and another rest that looks the same make no difference to statements. -/
theorem stmtsCarry {exprFuel exprFuel' fuel fuel' : Nat} (hexpr : exprFuel ≤ exprFuel')
    (h : fuel ≤ fuel') : StmtsCarry exprFuel exprFuel' fuel fuel' := by
  induction fuel generalizing fuel' with
  | zero =>
      constructor
      all_goals
        intro ts rest a h
        cases h
  | succ fuel ih =>
      obtain ⟨fuel', rfl⟩ : ∃ f, fuel' = f + 1 := ⟨fuel' - 1, by omega⟩
      have ih := ih (Nat.le_of_succ_le_succ h)
      exact ⟨ih.stmtStep hexpr, ih.branchStep hexpr, ih.elseStep, ih.suiteStep hexpr, ih.blockStep⟩

end BlockWorkbench.Script
