import ScopedSql.Sql.Reader
import ScopedSql.Store.Names

/-!
# Answering statements

A statement is read, its names are looked up, and only then it is run. What is refused before it is
run leaves no trace in the store.
-/

namespace ScopedSql

namespace Store

/-- Why a text is no statement. -/
def syntaxFault (sql : String) : EngineFault :=
  match Sql.unexpected? (Sql.placed sql) with
  | some (t, offset) => .located (.unexpected (String.ofList t.chars)) sql offset
  | none => .unknownStatement

/-- **Answers a statement** of which one thing is asked. Whoever runs it for its effect does not want
rows. -/
def answer (s : Store) (verb : Verb) (sql : String) (bindings : Bindings) :
    Store × Except Fault Response :=
  match Sql.parse? sql with
  | none => (s, .error (.engine (syntaxFault sql)))
  | some command =>
      match s.check sql command with
      | .error e => (s, .error (.engine e))
      | .ok () =>
          match s.execute bindings command with
          | .error e => (s.failed command, .error (.engine e))
          | .ok (s, rows) =>
              if verb = .run ∧ !rows.isEmpty then (s, .error (.engine .readsRows))
              else (s, .ok { changes := s.lastChanges, rowid := s.lastRowid, row := rows.head?, rows })

end Store

end ScopedSql
