import Sigil.Report
import Sigil.Symbol

/-! # The log of a check

A check logs its start, each declaration as it is registered, each output and, if it accepts the
program, its end. Declarations are logged at trace level and the rest at debug level.
-/

namespace Sigil

/-- How much detail an event belongs to. -/
inductive Event.Level where
  | debug
  | trace
  deriving DecidableEq

/-- Something that a check logs. -/
inductive Event where
  | started (statements : Nat)
  | declaredValue (category : Category) (name : String) (type : Ty)
  | declaredMethod (name : String) (returnType : Ty)
  | declaredClass (name : String) (parent : Option String)
  | shown (output : Output)
  | finished (symbols outputs warnings : Nat)
  deriving DecidableEq

namespace Event

/-- The level of an event. -/
def level : Event → Level
  | started _ | shown _ | finished _ _ _ => .debug
  | declaredValue _ _ _ | declaredMethod _ _ | declaredClass _ _ => .trace

/-- The label of a level. -/
def Level.label : Level → String
  | .debug => "DEBUG"
  | .trace => "TRACE"

/-- How the log writes the parent of a class. -/
def parentText : Option String → String
  | none => "None"
  | some parent => "Some(\"" ++ parent ++ "\")"

/-- The message of an event. -/
def message : Event → String
  | started statements => s!"analysis start: statements={statements}"
  | declaredValue category name type =>
      "declare " ++ category.label ++ " " ++ name ++ ": " ++ type.name
  | declaredMethod name returnType => "declare method " ++ name ++ " -> " ++ returnType.name
  | declaredClass name parent => "declare class " ++ name ++ " parent=" ++ parentText parent
  | shown output => output.text
  | finished symbols outputs warnings =>
      s!"analysis end: symbols={symbols} outputs={outputs} warnings={warnings}"

/-- An event as one line of the log. -/
def text (event : Event) : String := event.level.label ++ " " ++ event.message

end Event

end Sigil
