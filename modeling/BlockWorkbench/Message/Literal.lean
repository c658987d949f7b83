import BlockWorkbench.Message.Basic

/-!
Messages written as the calls that would make them, and equality of messages field by field.
-/

namespace BlockWorkbench

/-- A call with named arguments. -/
def callLiteral (name : String) (args : List (String × String)) : String :=
  name ++ "(" ++ Json.commaSeparated (args.map fun (n, v) => n ++ "=" ++ v) ++ ")"

namespace Argument

def literal : Argument → String
  | given text => text.literal
  | cached slot => callLiteral "CacheRef" [("slot", slot.literal)]

def same : Argument → Argument → Bool
  | given a, given b => a.same b
  | cached a, cached b => a.same b
  | _, _ => false

end Argument

namespace Arguments

def literal : Arguments → String
  | listed items => "[" ++ Json.commaSeparated (items.map Argument.literal) ++ "]"
  | other v => v.literal

def same : Arguments → Arguments → Bool
  | listed as, listed bs =>
    as.length == bs.length && (as.zip bs).all fun (a, b) => a.same b
  | other a, other b => a.same b
  | _, _ => false

end Arguments

namespace Message

variable {α : Type}

/-- A message as a call, where `inspect` writes the values of notifications. -/
def literal (inspect : α → String) (m : Message α) : String :=
  match m with
  | evaluate source => callLiteral m.className [("source", source.literal)]
  | evaluateFunction name args =>
    callLiteral m.className [("name", name.literal), ("args", args.literal)]
  | resetScope clearScope clearUnit =>
    callLiteral m.className
      [("clear_scope", clearScope.literal), ("clear_compiled_unit", clearUnit.literal)]
  | runRange r =>
    callLiteral m.className
      [("start", r.start.literal), ("stop", r.stop.literal), ("endpoint", r.endpoint.literal),
        ("package", r.package.literal), ("module_name", r.moduleName.literal),
        ("token", r.token.literal)]
  | fetchBlock r =>
    callLiteral m.className
      [("block_number", r.blockNumber.literal), ("endpoint", r.endpoint.literal),
        ("token", r.token.literal), ("cache_slot", r.cacheSlot.literal)]
  | text t => callLiteral m.className [("text", t.literal)]
  | json v => callLiteral m.className [("value", inspect v)]
  | blockCacheUpdated slot v =>
    callLiteral m.className [("slot", slot.literal), ("value", inspect v)]
  | cacheRef slot => callLiteral m.className [("slot", slot.literal)]
  | build | cleared | shutdown => callLiteral m.className []
  | other v => v.literal

/-- Equality of messages, where `eq` compares the values of notifications. -/
def same (eq : α → α → Bool) : Message α → Message α → Bool
  | evaluate a, evaluate b => a.same b
  | evaluateFunction n as, evaluateFunction m bs => n.same m && as.same bs
  | resetScope a b, resetScope c d => a.same c && b.same d
  | build, build | cleared, cleared | shutdown, shutdown => true
  | runRange a, runRange b =>
    a.start.same b.start && a.stop.same b.stop && a.endpoint.same b.endpoint
      && a.package.same b.package && a.moduleName.same b.moduleName && a.token.same b.token
  | fetchBlock a, fetchBlock b =>
    a.blockNumber.same b.blockNumber && a.endpoint.same b.endpoint && a.token.same b.token
      && a.cacheSlot.same b.cacheSlot
  | text a, text b => a.same b
  | json a, json b => eq a b
  | blockCacheUpdated s a, blockCacheUpdated t b => s.same t && eq a b
  | cacheRef a, cacheRef b => a.same b
  | other a, other b => a.same b
  | _, _ => false

end Message

end BlockWorkbench
