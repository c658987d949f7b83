import BlockWorkbench.Proofs.Handling
import BlockWorkbench.Proofs.Json.Strings
import BlockWorkbench.Proofs.Outcome
import BlockWorkbench.Proofs.Script.Data
import BlockWorkbench.StreamingWorker

/-!
The records of a session and their answers. Each record has one answer, its value or why it is not
JSON, in the order of the records, as long as none of them nests its brackets too deeply. One that
does ends the session: it is answered by the failure of the request, and the records behind it are
lost.
-/

namespace BlockWorkbench

namespace Json

/-- Whether reading a text fails because too many of its brackets are nested. -/
def TooDeep (text : String) : Prop :=
  ∃ isObject, (read text : Except ReadError (Json Points)) = .error (.tooDeep isObject)

theorem kind_badJson_iff (text : String) (e : ReadError) :
    (Fault.badJson text e).kind = .recursion ↔ ∃ isObject, e = .tooDeep isObject := by
  cases e <;> simp [Fault.kind]

/-- A text of which more brackets are open than are allowed. -/
theorem readValue_brackets (fuel depth n : Nat) (h : depth < n) :
    (readValue fuel depth (List.replicate n '[') : Except ReadError (Json Points × List Char)) =
      .error (.tooDeep false) := by
  induction depth generalizing fuel n with
  | zero =>
      obtain ⟨n, rfl⟩ := Nat.exists_eq_add_of_lt h
      cases fuel with
      | zero => rfl
      | succ fuel => rw [Nat.zero_add, List.replicate_succ, readValue]; rfl
  | succ depth ih =>
      obtain ⟨n, rfl⟩ : ∃ m, n = m + 2 := ⟨n - 2, by omega⟩
      have hspace : skipSpace (List.replicate (n + 1) '[') = List.replicate (n + 1) '[' := rfl
      -- the bracket takes one level of fuel, the items behind it another
      rcases fuel with _ | _ | fuel
      · rfl
      · rw [List.replicate_succ, readValue, hspace]
        rfl
      · have hitems : (readItems (fuel + 1) depth (List.replicate (n + 1) '[') :
            Except ReadError (List (Json Points) × List Char)) = .error (.tooDeep false) := by
          rw [readItems, ih fuel (n + 1) (by omega)]
          rfl
        rw [List.replicate_succ, readValue, if_neg (Nat.succ_ne_zero depth), hspace]
        change Except.map _ (readItems (fuel + 1) depth (List.replicate (n + 1) '[')) = _
        rw [hitems]
        rfl

theorem tooDeep_brackets {n : Nat} (h : depthLimit < n) :
    TooDeep (String.ofList (List.replicate n '[')) := by
  obtain ⟨n, rfl⟩ := Nat.exists_eq_add_of_lt h
  refine ⟨false, ?_⟩
  have hspace : ∀ m, skipSpace (List.replicate (m + 1) '[') = List.replicate (m + 1) '[' :=
    fun _ => rfl
  have hhead : ∀ m, (List.replicate (m + 1) '[').head? ≠ some '\ufeff' := fun _ => by
    simp [List.replicate_succ]
  rw [read, String.toList_ofList, readAll, if_neg (hhead _), hspace,
    readValue_brackets _ _ _ (by omega)]
  rfl

end Json

namespace StreamingWorker

open Script (Value)

/-- The message that carries the value of a record. -/
def Target.message : Target → Value → Message Value
  | passedOn, x => .json x
  | cached given _, x => .blockCacheUpdated given x

/-- Whether a record cannot be read because too many of its brackets are nested. -/
def Unreadable (record : Json) : Prop := ∃ f, record.readText = .error f ∧ f.kind = .recursion

theorem unreadable_str {text : String} : Unreadable (.str text) ↔ Json.TooDeep text := by
  cases hread : (Json.read text : Except Json.ReadError (Json Points)) with
  | ok v => simp [Unreadable, Json.TooDeep, Json.readText, hread]
  | error e => simp [Unreadable, Json.TooDeep, Json.readText, hread, Json.kind_badJson_iff]

/-- The answers to a record: its value, made in the store, or what is wrong with it. -/
inductive AnswersRecord (s : Script.Store) (target : Target) : Json → Message Value → Prop
  | value {record : Json} {v : Json Points} {x : Value} : record.readText = .ok v → s.Holds v x →
      AnswersRecord s target record (target.message x)
  | malformed {record : Json} {f : Fault} : record.readText = .error f →
      AnswersRecord s target record (.text (.str ("Malformed record: " ++ f.message)))

/-- What a session gives whose records are texts. -/
def texts (records : List String) : List Stream.Entry := (records.map Json.str).map .record

/-- The requests whose session opens, and what the session gives. -/
inductive Opens (w : StreamingWorker) : Message Value → Target → List Stream.Entry → Prop
  | range {r : RangeRequest} {entries : List Stream.Entry} :
      (w.client.openSession r).1 = .ok entries → Opens w (.runRange r) .passedOn entries
  | block {b : BlockRequest} {slot : Slot} {stop : Json} {entries : List Stream.Entry} :
      Slot.ofJson? b.cacheSlot = some slot → successor? b.blockNumber = some stop →
      (w.client.openSession {
        start := b.blockNumber, stop, endpoint := b.endpoint, package := .str blockPackage
        moduleName := .str blockModule, token := b.token }).1 = .ok entries →
      Opens w (.fetchBlock b) (.cached b.cacheSlot slot) entries

/-- The message about a request that could not be dealt with. -/
def refusal (request : Message Value) : Message Value :=
  .text (.str ("Stream failed: internal failure handling " ++ request.className))

variable (w : StreamingWorker)

theorem deliver_spec (target : Target) (v : Json Points) :
    w.store.Extends (w.deliver target v).2.store ∧ (w.deliver target v).2.client = w.client ∧
      ∃ x, (w.deliver target v).1 = target.message x ∧
        (w.deliver target v).2.store.Holds v x := by
  obtain ⟨hgrown, hvalue⟩ := w.store.ofJson_spec v
  cases target with
  | passedOn => exact ⟨hgrown, rfl, _, rfl, hvalue⟩
  | cached given slot => exact ⟨hgrown, rfl, _, rfl, hvalue⟩

/-- Records that can be read or are malformed are answered one by one, and what comes behind them is
taken in by the worker that they leave. -/
theorem receive_append (target : Target) {records : List Json}
    (h : ∀ record ∈ records, ¬ Unreadable record) (rest : List Stream.Entry) :
    ∃ (u : StreamingWorker) (messages : List (Message Value)), w.store.Extends u.store ∧
      u.client = w.client ∧ List.Forall₂ (AnswersRecord u.store target) records messages ∧
      let later := u.receive target rest
      w.receive target (records.map .record ++ rest) =
        { later with messages := messages ++ later.messages } := by
  induction records generalizing w with
  | nil => exact ⟨w, [], .refl _, rfl, .nil, rfl⟩
  | cons record records ih =>
      obtain ⟨hrecord, hrecords⟩ := List.forall_mem_cons.mp h
      cases hread : record.readText with
      | ok v =>
          obtain ⟨hgrown, hclient, x, hmessage, hx⟩ := w.deliver_spec target v
          obtain ⟨u, messages, hlater, hkept, hanswers, hreceive⟩ :=
            ih (w.deliver target v).2 hrecords
          -- What the answer holds is still in the store behind the other records.
          refine ⟨u, (w.deliver target v).1 :: messages, hgrown.trans hlater, hkept.trans hclient,
            .cons (hmessage ▸ .value hread (hx.mono hlater)) hanswers, ?_⟩
          simp only [List.map_cons, List.cons_append, receive, hread, hreceive]
      | error f =>
          have hkind : f.kind ≠ .recursion := fun hkind => hrecord ⟨f, hread, hkind⟩
          obtain ⟨u, messages, hlater, hkept, hanswers, hreceive⟩ := ih w hrecords
          refine ⟨u, _ :: messages, hlater, hkept, .cons (.malformed hread) hanswers, ?_⟩
          simp only [List.map_cons, List.cons_append, receive, hread, if_neg hkind, hreceive]

theorem receive_unreadable (target : Target) {record : Json} (h : Unreadable record)
    (rest : List Stream.Entry) : w.receive target (.record record :: rest) = Handled.giveUp w := by
  obtain ⟨f, hread, hkind⟩ := h
  simp [receive, hread, hkind]

theorem worker_step (request : Message Value) :
    (step w request).worker = (w.handle request).worker :=
  Handled.worker_reported _ _ _ _

/-- A request that was given up is refused if it can be reported. -/
theorem messages_step (request : Message Value) :
    (step w request).messages = (w.handle request).messages ++
      if (w.handle request).ending = .undone ∧
          request.isTooDeep (w.handle request).worker.store = false
        then [refusal request] else [] := by
  rw [step, Handled.messages_reported]
  rfl

theorem Opens.handle {w : StreamingWorker} {request : Message Value} {target : Target}
    {entries : List Stream.Entry} (h : w.Opens request target entries) :
    ∃ r, (w.client.openSession r).1 = .ok entries ∧ w.handle request = w.stream target r := by
  cases h with
  | range hopen => exact ⟨_, hopen, rfl⟩
  | block hslot hstop hopen =>
      exact ⟨_, hopen, by simp only [StreamingWorker.handle, fetchBlock, hslot, hstop]⟩

/-- A request whose session opens says what the session gives, and reports a session that fails. -/
theorem step_opens {request : Message Value} {target : Target} {entries : List Stream.Entry}
    (h : w.Opens request target entries) :
    ∃ u : StreamingWorker, let answer := u.receive target entries
      u.store = w.store ∧ (step w request).worker = answer.worker ∧
      (step w request).messages = answer.messages ++
        if answer.ending = .undone ∧ request.isTooDeep answer.worker.store = false
          then [refusal request] else [] := by
  obtain ⟨r, hopen, hhandle⟩ := h.handle
  cases hsession : w.client.openSession r with | mk result client =>
  rw [hsession] at hopen
  cases hopen
  refine ⟨{ w with client }, rfl, ?_⟩
  rw [worker_step, messages_step]
  simp only [hhandle, stream, hsession]
  trivial

/-- A session whose records are texts, none of them too deep, answers each of them. -/
theorem step_answers_records {request : Message Value} {target : Target} {records : List String}
    (h : w.Opens request target (texts records)) (hrecords : ∀ t ∈ records, ¬ Json.TooDeep t) :
    List.Forall₂ (AnswersRecord (step w request).worker.store target) (records.map .str)
      (step w request).messages := by
  obtain ⟨u, -, hworker, hmessages⟩ := w.step_opens h
  have hreadable : ∀ record ∈ records.map Json.str, ¬ Unreadable record := by
    simpa [unreadable_str]
  obtain ⟨u', messages, -, -, hanswers, hreceive⟩ := u.receive_append target hreadable []
  rw [List.append_nil, ← texts] at hreceive
  rw [hworker, hmessages, hreceive]
  simpa [receive] using hanswers

/-- A session whose records are texts answers those before the first that is too deep, reports that
it failed unless the request itself is too deep for that, and says nothing of those behind it. -/
theorem step_stops_tooDeep {request : Message Value} {target : Target} {before behind : List String}
    {text : String} (h : w.Opens request target (texts (before ++ text :: behind)))
    (hbefore : ∀ t ∈ before, ¬ Json.TooDeep t) (htext : Json.TooDeep text) :
    ∃ messages,
      List.Forall₂ (AnswersRecord (step w request).worker.store target) (before.map .str) messages ∧
        (step w request).messages = messages ++
          if request.isTooDeep (step w request).worker.store then [] else [refusal request] := by
  obtain ⟨u, -, hworker, hmessages⟩ := w.step_opens h
  have hreadable : ∀ record ∈ before.map Json.str, ¬ Unreadable record := by
    simpa [unreadable_str]
  obtain ⟨u', messages, -, -, hanswers, hreceive⟩ :=
    u.receive_append target hreadable (texts (text :: behind))
  have hlost : u'.receive target (texts (text :: behind)) = Handled.giveUp u' :=
    u'.receive_unreadable target (unreadable_str.mpr htext) _
  have hentries : texts (before ++ text :: behind) =
      (before.map Json.str).map .record ++ texts (text :: behind) := by simp [texts]
  rw [hentries, hreceive, hlost] at hworker hmessages
  refine ⟨messages, by simpa [hworker, Handled.giveUp] using hanswers, ?_⟩
  rw [hmessages, hworker]
  cases hdeep : request.isTooDeep u'.store <;> simp [Handled.giveUp, hdeep]

theorem not_answersRecord_refusal {s : Script.Store} {target : Target} {record : Json}
    (request : Message Value) : ¬ AnswersRecord s target record (refusal request) := by
  intro h
  generalize hm : refusal request = m at h
  cases h with
  | value => cases target <;> cases hm
  | malformed =>
      simp only [refusal, Message.text.injEq, Json.str.injEq] at hm
      have hhead := congrArg List.head? hm
      simp [Points.ofString] at hhead

/-- Of records that are too deep, one is the first. -/
theorem exists_first_tooDeep {records : List String} {t : String} (ht : t ∈ records)
    (hdeep : Json.TooDeep t) :
    ∃ before text behind, records = before ++ text :: behind ∧
      (∀ t ∈ before, ¬ Json.TooDeep t) ∧ Json.TooDeep text := by
  classical
  have hsome : (records.find? fun t => decide (Json.TooDeep t)).isSome := by
    rw [List.find?_isSome]
    exact ⟨t, ht, by simpa using hdeep⟩
  obtain ⟨text, hfound⟩ := Option.isSome_iff_exists.mp hsome
  obtain ⟨htext, before, behind, hrecords, hbefore⟩ := List.find?_eq_some_iff_append.mp hfound
  exact ⟨before, text, behind, hrecords, by simpa using hbefore, by simpa using htext⟩

/-- Every record of a session is answered, in order, exactly if none of them is too deep. If one is,
the records before the first such one are answered, and in place of all others stands the failure of
the request, unless that is too deep to be reported. -/
theorem records_answered_iff {request : Message Value} {target : Target} {records : List String}
    (h : w.Opens request target (texts records)) :
    (List.Forall₂ (AnswersRecord (step w request).worker.store target) (records.map .str)
        (step w request).messages ↔ ∀ t ∈ records, ¬ Json.TooDeep t) ∧
      ∀ before text behind, records = before ++ text :: behind →
        (∀ t ∈ before, ¬ Json.TooDeep t) → Json.TooDeep text →
        ∃ messages,
          List.Forall₂ (AnswersRecord (step w request).worker.store target) (before.map .str)
              messages ∧
            (step w request).messages = messages ++
              if request.isTooDeep (step w request).worker.store then [] else [refusal request] := by
  refine ⟨⟨fun hanswers t ht hdeep => ?_, w.step_answers_records h⟩, ?_⟩
  · obtain ⟨before, text, behind, rfl, hbefore, htext⟩ := exists_first_tooDeep ht hdeep
    obtain ⟨messages, hsaid, hmessages⟩ := w.step_stops_tooDeep h hbefore htext
    rw [hmessages, List.map_append, List.map_cons] at hanswers
    split at hanswers
    · have hlength := hanswers.length_eq
      simp [← hsaid.length_eq] at hlength
    · have hlast := List.forall₂_drop_append _ _ _ hanswers
      obtain ⟨_, _, hrefusal, -⟩ := List.forall₂_cons_right_iff.mp hlast
      exact not_answersRecord_refusal request hrefusal
  · rintro before text behind rfl hbefore htext
    exact w.step_stops_tooDeep h hbefore htext

/-- A record with more brackets than are read. -/
def bracketRecord : String := String.ofList (List.replicate 3000 '[')

theorem tooDeep_bracketRecord : Json.TooDeep bracketRecord := Json.tooDeep_brackets (by decide)

def rangeOfTwo : Message Value :=
  .runRange ⟨.int 1, .int 3, .str "https://example.org", .str "p.spkg", .str "map_block", .null⟩

/-- A worker whose only session gives these records. -/
def workerFor (records : List String) : StreamingWorker where
  client := { service := .scripted [.opened (texts records)] }

theorem opens_workerFor (records : List String) :
    (workerFor records).Opens rangeOfTwo .passedOn (texts records) :=
  .range rfl

theorem records_answered_iff_number :
    (workerFor ["1"]).Opens rangeOfTwo .passedOn (texts ["1"]) ∧
      List.Forall₂ (AnswersRecord (step (workerFor ["1"]) rangeOfTwo).worker.store .passedOn)
        [.str "1"] (step (workerFor ["1"]) rangeOfTwo).messages := by
  have hopens := opens_workerFor ["1"]
  refine ⟨hopens, (records_answered_iff _ hopens).1.mpr ?_⟩
  have hread : Json.read "1" = .ok (.int 1 : Json Points) := by cbv
  simp [Json.TooDeep, hread]

theorem messages_lost {text : String} (h : Json.TooDeep text) (next : String) :
    (step (workerFor [text, next]) rangeOfTwo).messages = [refusal rangeOfTwo] := by
  have hopens : (workerFor [text, next]).Opens rangeOfTwo .passedOn (texts ([] ++ [text, next])) :=
    opens_workerFor [text, next]
  obtain ⟨messages, hanswers, hmessages⟩ := step_stops_tooDeep _ hopens (by simp) h
  cases hanswers
  exact hmessages

/-- A record that is too deep costs the one behind it. -/
theorem deep_record_costs_next :
    (workerFor [bracketRecord, "1"]).Opens rangeOfTwo .passedOn (texts [bracketRecord, "1"]) ∧
      (step (workerFor [bracketRecord, "1"]) rangeOfTwo).messages = [refusal rangeOfTwo] ∧
      ∀ store messages,
        List.Forall₂ (AnswersRecord store .passedOn) [.str bracketRecord, .str "1"] messages →
        (step (workerFor [bracketRecord, "1"]) rangeOfTwo).messages ≠ messages := by
  have hmessages := messages_lost tooDeep_bracketRecord "1"
  refine ⟨opens_workerFor _, hmessages, fun store messages hanswers h => ?_⟩
  rw [hmessages] at h
  subst h
  exact absurd hanswers.length_eq (by simp)

end StreamingWorker

end BlockWorkbench
