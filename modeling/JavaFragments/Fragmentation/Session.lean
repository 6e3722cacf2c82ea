import JavaFragments.Fragmentation.Write

/-! # Sessions

A session turns one statement after another into fragments. A statement that fails leaves what it
appended up to there, and the session may go on. It ends with a check that every block is closed. -/
set_option autoImplicit false

namespace JavaFragments

structure FragmentedBody where
  fragments : List Fragment
  imports : Imports

structure Session extends Draft where
  environment : Environment
  writer : DeclarationWriter

namespace Session

def startWith (env : Environment) (writer : DeclarationWriter) : Session :=
  ⟨⟨.empty, .empty, []⟩, env, writer⟩

def start (env : Environment) (printer : DeclarationPrinter) : Session :=
  startWith env printer.writer

/-- The session behind a statement, and the error where the statement fails. -/
def fragment (s : Session) (statement : Statement) : Session × Option FragmentationError :=
  let (result, draft) := statement.write s.environment s.writer .alone s.toDraft
  ({ s with toDraft := draft }, failure? result)

/-- Goes on behind statements that fail. -/
def fragmentAll (s : Session) (statements : List Statement) : Session :=
  statements.foldl (fun s statement => (s.fragment statement).1) s

/-- The events of a session that ends well. -/
def closingEvents (s : Session) : List Event :=
  [.listed s.sequence.fragments,
    .finished s.environment.currentType s.sequence.fragments.length s.sequence.allocated]

def finish (s : Session) : Except FragmentationError FragmentedBody :=
  match balanceFault? s.sequence.fragments with
  | none => .ok ⟨s.sequence.fragments, s.imports⟩
  | some fault => .error (.unbalanced fault)

end Session

/-- The fragments of a whole method body. -/
def fragmentBody (body : Statement) (env : Environment) :
    Except FragmentationError FragmentedBody :=
  let (session, failure) := (Session.start env declarationHead).fragment body
  match failure with
  | some error => .error error
  | none => session.finish

/-- What is logged while the fragments of a method body are made, in order. -/
def bodyEvents (body : Statement) (env : Environment) : List Event :=
  let (session, failure) := (Session.start env declarationHead).fragment body
  .bodyBegun env.currentType body.count :: session.events ++
    match failure, session.finish with
    | none, .ok _ => session.closingEvents
    | _, _ => []

end JavaFragments
