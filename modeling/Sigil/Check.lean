import Sigil.Context
import Sigil.Event
import Sigil.Syntax.Stmt

/-! # Checking statements

A check walks over the statements once, in order, and stops at the first error. What it has
registered and logged until then remains. Every declaration goes through the same steps: its name is
well formed, the name is fresh, the types it mentions are known, and only then is it registered.
-/

namespace Sigil

/-- The state of a check: the context, and what has been logged. -/
structure Run where
  context : Context := ∅
  log : List Event := []

/-- A step of a check, which may fail and keeps its state if it does. -/
abbrev Check := EStateM Error Run

namespace Check

/-- Logs an event. -/
def log (event : Event) : Check Unit := modify fun run => { run with log := run.log ++ [event] }

/-- Changes the context. -/
def update (change : Context → Context) : Check Unit :=
  modify fun run => { run with context := change run.context }

/-- Asks the declarations so far. -/
def ask {α : Type} (query : Declarations → Except Error α) : Check α := do
  MonadExcept.ofExcept (query (← get).context.toDeclarations)

@[simp] theorem log_run (event : Event) (run : Run) :
    log event run = .ok () { run with log := run.log ++ [event] } := rfl

@[simp] theorem update_run (change : Context → Context) (run : Run) :
    update change run = .ok () { run with context := change run.context } := rfl

/-- A query leaves the run as it is, whatever it answers. -/
theorem ask_run {α : Type} (query : Declarations → Except Error α) (run : Run) :
    ask query run =
      match query run.context.toDeclarations with
      | .ok answer => .ok answer run
      | .error error => .error error run := by
  change (MonadExcept.ofExcept (query run.context.toDeclarations) : Check α) run = _
  cases query run.context.toDeclarations <;> rfl

/-- Types an expression. -/
def infer (expr : Expr) : Check Ty := fun run =>
  match run.context.infer expr with
  | (.ok type, context) => .ok type { run with context }
  | (.error error, context) => .error error { run with context }

/-- Reads a name that holds a value. -/
def readValue (target : Ident) : Check Ty := infer (.var target.name target.span)

/-- Refuses a name with a fault. -/
def requireName (fault? : Option NameFault) (name : String) (span : Span) : Check Unit :=
  match fault? with
  | none => return ()
  | some fault => throw ⟨.invalidName name fault, span⟩

/-- Refuses a name that is already declared. -/
def requireFresh (category : Category) (name : String) (span : Span) : Check Unit :=
  ask fun decls =>
    require (!decls.symbols.contains name) ⟨.redeclared (.symbol category) name, span⟩

/-- Adds a symbol. -/
def register (name : String) (role : Role) (type : Ty) (span : Span) : Check Unit :=
  update fun context =>
    { context with symbols := context.symbols.define (.declaredAt name role type span) }

/-- Declares a variable, parameter or field, and gives its type. -/
def declareValue (signature : Signature) (role : Role) (span : Span) : Check Ty := do
  let name := signature.name.name
  requireName (variableNameFault? name) name span
  requireFresh role.category name span
  let type ← ask fun decls => decls.valueType signature.type
  log (.declaredValue role.category name type)
  register name role type span
  return type

/-- Checks that the initial value of a variable has exactly the declared type. -/
def checkInit (name : String) (declared : Ty) (span : Span) : Option Expr → Check Unit
  | none => return ()
  | some init => do
      let found ← infer init
      require (found = declared) ⟨.mismatch (.stored found declared name), span⟩

/-- Declares a variable, then checks its initial value, which may already mention it. -/
def checkVar (decl : VarDecl) : Check Unit := do
  let declared ← declareValue decl.signature .var decl.span
  checkInit decl.signature.name.name declared decl.span decl.init

/-- Checks that a variable takes the value assigned to it. -/
def checkAssign (target : Ident) (value : Expr) (span : Span) : Check Unit := do
  let declared ← readValue target
  let found ← infer value
  ask fun decls =>
    require (decls.hierarchy.accepts declared found)
      ⟨.mismatch (.stored found declared target.name), span⟩

/-- Records an output; there must be a value to print. -/
def checkOutput (value : Expr) (span : Span) : Check Unit := do
  let type ← infer value
  require (type ≠ .none) ⟨.misuse .showNone, span⟩
  log (.shown ⟨type, span⟩)
  update fun context => { context with outputs := context.outputs ++ [⟨type, span⟩] }

/-- Declares the parameters of a method, and gives them with their types. -/
def declareParams (method : String) : List Signature → Check (List (String × Ty))
  | [] => return []
  | signature :: rest => do
      let type ← declareValue signature (.param method) signature.span
      let params ← declareParams method rest
      return (signature.name.name, type) :: params

/-- Declares the fields of a class and adds them to its entry. -/
def declareFields (className : String) : List Signature → Check Unit
  | [] => return ()
  | signature :: rest => do
      let type ← declareValue signature (.field className) signature.span
      update fun context =>
        { context with
          classes := context.classes.modify className (·.addField signature.name.name type) }
      declareFields className rest

/-- Registers a method, with its class if it has one. -/
def registerMethod (entry : MethodEntry) (span : Span) : Check Unit := do
  register entry.name .method entry.returnType span
  update fun context =>
    { context with
      methods := context.methods.insert entry.name entry
      classes :=
        match entry.owner with
        | none => context.classes
        | some owner => context.classes.modify owner (·.addMethod entry.name) }
  log (.declaredMethod entry.name entry.returnType)

/-- Declares a method with its parameters, up to its body, and gives its return type. -/
def declareMethod (owner : Option String) (name : Ident) (params : List Signature)
    (returns : TypeRef) (span : Span) : Check Ty := do
  requireName (methodNameFault? name.name) name.name name.span
  let params ← declareParams name.name params
  requireFresh .method name.name span
  let returnType ← ask fun decls => decls.returnType returns
  registerMethod ⟨name.name, params, returnType, owner⟩ span
  return returnType

/-- Checks that the value a method returns has exactly its return type. -/
def checkReturn (method : String) (returnType : Ty) : Option Return → Check Unit
  | none => return ()
  | some result => do
      let found ← infer result.value
      require (found = returnType) ⟨.mismatch (.returned returnType found method), result.span⟩

/-- Refuses a parent that is not known. -/
def requireParent : Option Ident → Check Unit
  | none => return ()
  | some parent =>
      ask fun decls =>
        require (decls.knowsClass parent.name) ⟨.unknownType parent.name, parent.span⟩

/-- Registers a class that has no members yet. -/
def registerClass (name : String) (parent : Option String) (span : Span) : Check Unit := do
  update fun context =>
    { context with
      hierarchy := context.hierarchy.insert name parent
      classes := context.classes.insert name { name, parent, span } }
  register name .classType (.object name) span
  log (.declaredClass name parent)

/-- Declares a class with its fields, up to its methods. A parent must be known before. -/
def declareClass (name : Ident) (parent : Option Ident) (fields : List Signature) (span : Span) :
    Check Unit := do
  requireName (classNameFault? name.name) name.name name.span
  requireFresh .classType name.name span
  requireParent parent
  registerClass name.name (parent.map Ident.name) span
  declareFields name.name fields

mutual

/-- Checks a statement. -/
def checkStmt : Stmt → Check Unit
  | .var decl => checkVar decl
  | .assign target value span => checkAssign target value span
  | .output value span => checkOutput value span
  | .method decl => checkMethod none decl
  | .classDecl decl => checkClass decl
  | .eval value => do
      let _ ← infer value

/-- Checks a method: its declaration, its body, then what it returns. -/
def checkMethod (owner : Option String) : MethodDecl → Check Unit
  | ⟨name, params, returns, body, result, span⟩ => do
      let returnType ← declareMethod owner name params returns span
      checkStmts body
      checkReturn name.name returnType result

/-- Checks a class: its declaration, then its methods. -/
def checkClass : ClassDecl → Check Unit
  | ⟨name, parent, fields, methods, span⟩ => do
      declareClass name parent fields span
      checkMethods name.name methods

/-- Checks statements in order. -/
def checkStmts : List Stmt → Check Unit
  | [] => return ()
  | stmt :: rest => do
      checkStmt stmt
      checkStmts rest

/-- Checks the methods of a class in order. -/
def checkMethods (owner : String) : List MethodDecl → Check Unit
  | [] => return ()
  | method :: rest => do
      checkMethod (some owner) method
      checkMethods owner rest

end

/-- Adds a warning for each name that was never read, if asked to. -/
def sweep (warnUnused : Bool) : Check Unit :=
  if warnUnused then
    update fun context => { context with warnings := context.warnings ++ context.unused }
  else return ()

/-- Logs the end of an accepted program. -/
def logEnd : Check Unit := do
  let context := (← get).context
  log (.finished context.symbols.size context.outputs.length context.warnings.length)

/-- Checks a program and then sweeps for names that were never read. -/
def checkProgram (warnUnused : Bool) (program : Program) : Check Unit := do
  log (.started program.length)
  checkStmts program
  sweep warnUnused
  logEnd

end Check

/-- The result of a check: its verdict, the context it leaves behind, and its log. -/
structure Outcome where
  verdict : Except Error Unit
  context : Context
  log : List Event

/-- Checks a program on top of what a context knows. -/
def Context.check (context : Context) (warnUnused : Bool) (program : Program) : Outcome :=
  match Check.checkProgram warnUnused program { context } with
  | .ok _ run => ⟨.ok (), run.context, run.log⟩
  | .error error run => ⟨.error error, run.context, run.log⟩

/-- The report of a check, unless it found an error. -/
def Outcome.report (outcome : Outcome) : Except Error Report :=
  outcome.verdict.map fun _ => outcome.context.report

end Sigil
