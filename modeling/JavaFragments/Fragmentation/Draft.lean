import JavaFragments.Fragmentation.Error
import JavaFragments.Fragmentation.Event
import JavaFragments.Fragmentation.Head
import JavaFragments.Imports

/-! # Drafts

A draft is a sequence of fragments while it grows, with the imports and the events so far. An edit
changes a draft in place. It may fail, and what it changed up to there stays.

Fragments leave a draft in two ways only. A loop writes its body on an empty sequence and puts the
sequence of before back, and the clause opened last in a `try` is taken back to where its head
begins if nothing stands behind its start. -/
set_option autoImplicit false

namespace JavaFragments

structure Draft where
  sequence : FragmentSequence
  imports : Imports
  events : List Event

def Draft.fragments (draft : Draft) : List Fragment := draft.sequence.fragments

abbrev Edit := ExceptT FragmentationError (StateM Draft)

/-- The error of a result that has one. -/
def failure? : Except FragmentationError Unit → Option FragmentationError
  | .ok _ => none
  | .error e => some e

/-- Where a clause begins whose body may turn out to be empty. -/
structure Checkpoint where
  /-- The index of the head. -/
  headAt : Nat
  head : List Token
  /-- The length of the sequence behind the start of the body. -/
  bodyAt : Nat

/-- The block that stands open in a `try`, with its checkpoint unless it is the plain `try` body. -/
structure OpenClause where
  kind : BlockKind
  checkpoint : Option Checkpoint

namespace Edit

def onSequence (change : FragmentSequence → FragmentSequence) : Edit Unit :=
  modify fun draft => { draft with sequence := change draft.sequence }

def push (fragment : Fragment) : Edit Unit :=
  onSequence fun sequence => sequence.push fragment

def append (fragments : List Fragment) : Edit Unit :=
  onSequence fun sequence => sequence.append fragments

def length : Edit Nat :=
  return (← get).fragments.length

def openBlock (kind : BlockKind) : Edit Group :=
  modifyGet fun draft =>
    let (group, sequence) := draft.sequence.openBlock kind
    (group, { draft with sequence := sequence })

def reopenBlock (group : Group) : Edit Unit :=
  onSequence fun sequence => sequence.reopenBlock group

def closeBlock (kind : BlockKind) (group : Group) : Edit Unit :=
  onSequence fun sequence => sequence.closeBlock kind group

def report (event : Event) : Edit Unit :=
  modify fun draft => { draft with events := draft.events ++ [event] }

def mention (env : Environment) (types : List ClassType) : Edit Unit :=
  modify fun draft => { draft with imports := draft.imports.insertAll types env }

/-- A phrase as one fragment. -/
def say (env : Environment) (phrase : Phrase) : Edit Unit := do
  mention env phrase.mentioned
  push (.tokens phrase.tokens)

def spacer (kind : Spacer) : Edit Unit :=
  push (.spacer kind)

/-- The labels of one body, with a spacer between each two of them. -/
def sayLabels (env : Environment) : List SwitchLabel → Edit Unit
  | [] => pure ()
  | [label] => say env (label.phrase env)
  | label :: rest => do
      say env (label.phrase env)
      spacer .betweenSwitchLabels
      sayLabels env rest

/-- An edit between the start and the end of a block of a group of its own. -/
def inBlock (kind : BlockKind) (body : Edit Unit) : Edit Unit := do
  let group ← openBlock kind
  body
  closeBlock kind group

/-- An edit between the start and the end of one more block of a group. -/
def inReopened (group : Group) (body : Edit Unit) : Edit Unit := do
  reopenBlock group
  body
  closeBlock .statements group

/-- Sets an edit between `else` and the end of its block where it stands as an `else` branch. -/
def placed (env : Environment) (spot : Place) (edit : Edit Unit) : Edit Unit :=
  match spot with
  | .alone => edit
  | .elseOf group => do
      say env (.ofToken (.keyword "else"))
      inReopened group edit

/-- The fragments that an edit puts on an empty sequence. The sequence of before is put back
whether it succeeds or not. -/
def apart (edit : Edit Unit) : Edit (List Fragment) := fun draft =>
  let (result, after) := edit { draft with sequence := { draft.sequence with fragments := [] } }
  (result.map fun _ => after.sequence.fragments,
    { after with sequence := { after.sequence with fragments := draft.sequence.fragments } })

/-- The head of a loop and the shape that the number of fragments of the body calls for. -/
def loopBody (head : List Token) (fragments : List Fragment) : Edit Unit :=
  match fragments.length with
  | 0 => do
      report .emptyLoopBody
      push (.tokens (head ++ [.semicolon]))
  | 1 => do
      push (.tokens head)
      inBlock .singleStatement (append fragments)
  | _ => do
      push (.tokens head)
      inBlock .statements (append fragments)

def loop (env : Environment) (head : Phrase) (body : Edit Unit) : Edit Unit := do
  mention env head.mentioned
  let fragments ← apart body
  loopBody head.tokens fragments

/-- Opens a clause behind its head, in the group given or in one of its own. -/
def openClause (env : Environment) (head : Phrase) (group : Option Group) :
    Edit (Group × OpenClause) := do
  mention env head.mentioned
  let headAt ← length
  push (.tokens head.tokens)
  let group ← match group with
    | none => openBlock .statements
    | some group => do
        reopenBlock group
        pure group
  let bodyAt ← length
  return (group, ⟨.statements, some ⟨headAt, head.tokens, bodyAt⟩⟩)

/-- Closes the clause that stands open and opens the next one of the group. -/
def nextClause (env : Environment) (group : Group) (opened : OpenClause) (head : Phrase) :
    Edit OpenClause := do
  closeBlock opened.kind group
  let (_, next) ← openClause env head (some group)
  return next

/-- Opens the first clause of a `try`. -/
def openTry (env : Environment) : Option (List Resource) → Edit (Group × OpenClause)
  | none => do
      let group ← openBlock .tryBody
      return (group, ⟨.tryBody, none⟩)
  | some [] => throw .emptyResourceList
  | some resources => openClause env (resourcesHead env resources) none

/-- Closes the last clause, or takes it back to its head where its body is empty. -/
def closeLast (group : Group) (opened : OpenClause) : Edit Unit := do
  match opened.checkpoint with
  | none => closeBlock opened.kind group
  | some checkpoint =>
      if checkpoint.bodyAt = (← length) then do
        report .emptyClauseBody
        onSequence fun sequence => sequence.take checkpoint.headAt
        push (.tokens (checkpoint.head ++ [.space, .emptyBraces]))
      else closeBlock opened.kind group

end Edit

end JavaFragments
