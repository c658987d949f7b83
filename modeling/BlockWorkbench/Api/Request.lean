import BlockWorkbench.Calling

/-!
The requests that clients of a session can make, each with its name and its parameters. Their
values come from clients and may be any JSON value. Halves of surrogate pairs are replaced in all
of them but the text that is searched for.
-/

namespace BlockWorkbench.Api

inductive Request where
  | version
  | modules
  | addModule (kind name code inputs updatePolicy : Json)
  | removeModule (id : Json)
  | renameModule (id name : Json)
  | updateModule (id code inputs updatePolicy : Json)
  | source
  | validate
  | writeSource
  | evaluateGraph
  | evaluate (source : Json)
  | evaluateModule (id : Json)
  | callFunction (name args : Json)
  | build
  | reset (clearScope clearUnit : Json)
  | runStream (start stop moduleName : Json)
  | fetchBlock (blockNumber cacheSlot : Json)
  | blockCache
  | messages (search : Json Points) (hideEmpty : Json)
  | clearMessages
  deriving Repr

/-- How a request is asked for: its name, its parameters, and the request that their values
make. -/
structure Entry where
  name : String
  params : List Parameter
  make : List (Json Points) → Option Request

open Parameter (required optional)

/-- A request made of values whose texts are strings. -/
def ofShown (make : List Json → Option Request) (values : List (Json Points)) : Option Request :=
  make (values.map Json.shown)

def entries : List Entry := [
  ⟨"get_version", [], fun _ => some .version⟩,
  ⟨"list_modules", [], fun _ => some .modules⟩,
  ⟨"add_module",
    [required "kind", required "name", optional "code", optional "inputs",
      optional "update_policy" (.str "set")],
    ofShown fun
      | [kind, name, code, inputs, policy] => some (.addModule kind name code inputs policy)
      | _ => none⟩,
  ⟨"remove_module", [required "id"], ofShown fun
    | [id] => some (.removeModule id)
    | _ => none⟩,
  ⟨"rename_module", [required "id", required "name"], ofShown fun
    | [id, name] => some (.renameModule id name)
    | _ => none⟩,
  ⟨"update_module",
    [required "id", optional "code", optional "inputs", optional "update_policy"],
    ofShown fun
      | [id, code, inputs, policy] => some (.updateModule id code inputs policy)
      | _ => none⟩,
  ⟨"get_source", [], fun _ => some .source⟩,
  ⟨"validate", [], fun _ => some .validate⟩,
  ⟨"write_source", [], fun _ => some .writeSource⟩,
  ⟨"run_in_repl", [], fun _ => some .evaluateGraph⟩,
  ⟨"evaluate", [required "source"], ofShown fun
    | [source] => some (.evaluate source)
    | _ => none⟩,
  ⟨"eval_module", [required "id"], ofShown fun
    | [id] => some (.evaluateModule id)
    | _ => none⟩,
  ⟨"eval_function", [required "name", optional "args"], ofShown fun
    | [name, args] => some (.callFunction name args)
    | _ => none⟩,
  ⟨"build", [], fun _ => some .build⟩,
  ⟨"reset", [optional "clear_scope" (.bool true), optional "clear_compiled_unit" (.bool false)],
    ofShown fun
      | [clearScope, clearUnit] => some (.reset clearScope clearUnit)
      | _ => none⟩,
  ⟨"run_stream", [optional "start", optional "stop", optional "module_name"], ofShown fun
    | [start, stop, moduleName] => some (.runStream start stop moduleName)
    | _ => none⟩,
  ⟨"fetch_block", [required "block_number", optional "cache_slot" (.int 1)], ofShown fun
    | [blockNumber, cacheSlot] => some (.fetchBlock blockNumber cacheSlot)
    | _ => none⟩,
  ⟨"get_block_cache", [], fun _ => some .blockCache⟩,
  ⟨"get_messages", [optional "search", optional "hide_empty" (.bool false)], fun
    | [search, hideEmpty] => some (.messages search hideEmpty.shown)
    | _ => none⟩,
  ⟨"clear_messages", [], fun _ => some .clearMessages⟩]

/-- The names of all requests in alphabetical order. -/
def names : List String := (entries.map (·.name)).mergeSort fun a b => decide (a ≤ b)

def entryOf? (name : String) : Option Entry := entries.find? (·.name == name)

/-- The request of an entry with named arguments. -/
def Entry.request (e : Entry) (named : List (Points × Json Points)) : Except Fault Request := do
  let values ← Parameter.bind e.name e.params named
  match e.make values with
  | some request => return request
  | none => throw (.missingArguments e.name (e.params.map (·.name)))

end BlockWorkbench.Api
