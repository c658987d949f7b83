import BlockWorkbench.Script.Parser

/-!
Programs that are well formed as trees and yet cannot be run: a return outside a function, a
break outside a loop, a parameter given twice, a constant that is assigned to. Also the names that
are local to a function.
-/

namespace BlockWorkbench.Script

mutual

/-- Whether a target can be assigned to: the name of the constant cannot, of whatever it is. -/
def Target.isFree : Target → Bool
  | .name s | .member _ s => s != constantName
  | .tuple items => areFree items
  | .index .. => true

def areFree : List Target → Bool
  | [] => true
  | t :: rest => t.isFree && areFree rest

end

/-- Whether parameters differ from each other and none has the name of the constant. -/
def areParameters (names : List String) : Bool :=
  names.eraseDups.length == names.length && !names.contains constantName

mutual

/-- Whether a statement may stand where it does. -/
def Stmt.isPlaced (inFunction inLoop : Bool) : Stmt → Bool
  | .assign targets _ => areFree targets
  | .define name params body =>
    name != constantName && areParameters (params.map (·.name)) && arePlaced true false body
  | .branch _ body orelse =>
    arePlaced inFunction inLoop body && arePlaced inFunction inLoop orelse
  | .forEach target _ body orelse =>
    target.isFree && arePlaced inFunction true body && arePlaced inFunction inLoop orelse
  | .loop _ body orelse =>
    arePlaced inFunction true body && arePlaced inFunction inLoop orelse
  | .break | .continue => inLoop
  | .return _ => inFunction
  | _ => true

def arePlaced (inFunction inLoop : Bool) : List Stmt → Bool
  | [] => true
  | s :: rest => s.isPlaced inFunction inLoop && arePlaced inFunction inLoop rest

end

mutual

def Target.names : Target → List String
  | .name s => [s]
  | .tuple items => targetNames items
  | .index .. | .member .. => []

def targetNames : List Target → List String
  | [] => []
  | t :: rest => t.names ++ targetNames rest

end

mutual

/-- The names that a statement binds where it stands. -/
def Stmt.bound : Stmt → List String
  | .assign targets _ => targetNames targets
  | .augment target _ _ => target.names
  | .define name _ _ => [name]
  | .branch _ body orelse | .loop _ body orelse => boundNames body ++ boundNames orelse
  | .forEach target _ body orelse => target.names ++ boundNames body ++ boundNames orelse
  | _ => []

def boundNames : List Stmt → List String
  | [] => []
  | s :: rest => s.bound ++ boundNames rest

end

/-- The program that a text is, checked. -/
def compile (source : String) : Except SyntaxError Program :=
  if source.contains '\x00' then .error ⟨.nullCharacter, 1⟩
  else
    match parseProgram source with
    | .error f => .error f
    | .ok program => if arePlaced false false program then .ok program else .error ⟨.malformed, 1⟩

end BlockWorkbench.Script
