import ScopedSql.Notice
import ScopedSql.Predicate.Basic
import ScopedSql.Value.Scalar

/-!
# The shorthand for filters

Callers write filters as documents:

* `null` or an object without members: no filter;
* a list of a column, an operator and an operand;
* an object whose first member is a column with its operand, or with an object that gives
  `operator` and `value`;
* an object with the member `AND` or `OR`: a group of filters.

`Shorthand.read` turns a document into a predicate. It is lenient: what it does not use it reports in
notices, which stand beside the outcome in the order in which they arise, also when the outcome is
a fault.
-/

namespace ScopedSql

open Json (Document)

/-- **An outcome with the notices** that led to it. -/
structure Reading (α : Type) where
  /-- The notices, oldest first. -/
  notices : List Notice
  /-- The outcome. -/
  outcome : Except Fault α

namespace Reading

variable {α β : Type}

/-- A result without notices. -/
def pure (a : α) : Reading α := ⟨[], .ok a⟩

/-- A fault without notices. -/
def fail (fault : PredicateFault) : Reading α := ⟨[], .error (.invalidPredicate fault)⟩

/-- The outcome of something that gives no notices. -/
def lift (r : Except Fault α) : Reading α := ⟨[], r⟩

/-- Continues with a result; a fault ends the reading. -/
def bind (r : Reading α) (f : α → Reading β) : Reading β :=
  match r.outcome with
  | .error e => ⟨r.notices, .error e⟩
  | .ok a => ⟨r.notices ++ (f a).notices, (f a).outcome⟩

instance : Monad Reading where
  pure := Reading.pure
  bind := Reading.bind

/-- Gives notices before a reading goes on. -/
def after (notices : List Notice) (r : Reading α) : Reading α :=
  ⟨notices ++ r.notices, r.outcome⟩

end Reading

namespace Shorthand

/-- All values of a list of scalars; the first other document is refused. -/
def scalars : List Document → Except Fault (List Value)
  | [] => .ok []
  | d :: rest => do
      let v ← Value.ofDocument d
      let vs ← scalars rest
      .ok (v :: vs)

/-- **An operand**: a scalar or a list of scalars. -/
def operand : Document → Except Fault Operand
  | .array items => (scalars items).map .list
  | d => (Value.ofDocument d).map .scalar

/-- A list of column, operator and operand; entries after the third are not used. -/
def triple (items : List Document) : Reading Predicate :=
  Reading.after (if items.length = 3 then [] else [.listLength items.length]) <|
    match items with
    | column :: operator :: value :: _ =>
        match column with
        | .text column =>
            match operator with
            | .text operator =>
                Reading.lift ((operand value).map (.comparison column (.parse operator)))
            | d => Reading.fail (.operatorNotText d)
        | d => Reading.fail (.columnNotText d)
    | _ => Reading.fail (.fewEntries items.length)

/-- The operator of a condition object, equality unless it is given. -/
def conditionOperator (column : String) (members : List (String × Document)) :
    Except Fault Operator :=
  match Document.member? "operator" members with
  | none => .ok .eq
  | some (.text operator) => .ok (.parse operator)
  | some d => .error (.invalidPredicate (.conditionOperator column d))

/-- The operand of a condition object, the absent value unless it is given. -/
def conditionOperand (members : List (String × Document)) : Except Fault Operand :=
  match Document.member? "value" members with
  | none => .ok (.scalar .null)
  | some d => operand d

/-- The keys of a condition object that mean nothing. -/
def unknownKeys (members : List (String × Document)) : List String :=
  (Document.keys members).filter fun key => key != "operator" && key != "value"

/-- A condition object: at least one of `operator` and `value`. -/
def condition (column : String) (members : List (String × Document)) : Reading Predicate :=
  if (Document.member? "operator" members).isNone && (Document.member? "value" members).isNone then
    Reading.fail (.bareCondition column (.object members))
  else
    let unknown := unknownKeys members
    Reading.after (if unknown.isEmpty then [] else [.unknownKeys column unknown]) <|
      Reading.lift do
        let operator ← conditionOperator column members
        let operand ← conditionOperand members
        .ok (.comparison column operator operand)

/-- The condition on one column. -/
def onColumn (column : String) : Document → Reading Predicate
  | .object members => condition column members
  | d => Reading.lift ((operand d).map (.comparison column .eq))

/-- An object that is no group: only its first member counts. -/
def shorthandColumn (members : List (String × Document)) : Reading Predicate :=
  Reading.after (if 1 < members.length then [.extraColumns members.length] else []) <|
    match members with
    | [] => Reading.fail (.shape (.object []))
    | (column, d) :: _ => onColumn column d

/-- The group that an object stands for: its members `AND` and `OR`, of which `AND` counts. -/
def groupOf? (members : List (String × Document)) : Option Connector :=
  if (Document.member? "AND" members).isSome then some .and
  else if (Document.member? "OR" members).isSome then some .or
  else none

/-- The notices of a group object: both groups at once, and keys that are none. -/
def groupNotices (members : List (String × Document)) : List Notice :=
  let both := (Document.member? "AND" members).isSome && (Document.member? "OR" members).isSome
  let ignored := (Document.keys members).filter fun key => key != "AND" && key != "OR"
  (if both then [.bothGroups] else []) ++ (if ignored.isEmpty then [] else [.ignoredKeys ignored])

mutual

/-- **Reads a filter.** -/
def read : Document → Reading (Option Predicate)
  | .null => Reading.pure none
  | .array items => (triple items).bind fun p => Reading.pure (some p)
  | .object [] => Reading.pure none
  | .object (m :: rest) =>
      match groupOf? (m :: rest) with
      | some connector =>
          Reading.after (groupNotices (m :: rest)) <|
            (readMember connector (m :: rest)).bind fun p => Reading.pure (some p)
      | none => (shorthandColumn (m :: rest)).bind fun p => Reading.pure (some p)
  | d => Reading.fail (.shape d)
termination_by structural d => d

/-- The group under the key of a connector, the first such member. -/
def readMember (connector : Connector) : List (String × Document) → Reading Predicate
  | [] => Reading.fail (.groupNotList connector .null)
  | (key, d) :: rest =>
      if key = connector.sql then readGroup connector d else readMember connector rest
termination_by structural ms => ms

/-- A group: a list of filters. -/
def readGroup (connector : Connector) : Document → Reading Predicate
  | .array items => (readAll items).bind fun ps => Reading.pure (.group connector ps)
  | d => Reading.fail (.groupNotList connector d)
termination_by structural d => d

/-- The filters of a list, without those that filter nothing; the first fault ends it. -/
def readAll : List Document → Reading (List Predicate)
  | [] => Reading.pure []
  | d :: rest =>
      (read d).bind fun p =>
        (readAll rest).bind fun ps => Reading.pure (p.toList ++ ps)
termination_by structural ds => ds

end

end Shorthand

end ScopedSql
