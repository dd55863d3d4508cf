import ScopedSql.Proofs.Database.Preparing
import ScopedSql.Proofs.Database.Readiness

/-!
# Callers of transaction statements

The engine may fail or be slow at any of the three prepare calls, while any number of callers come and
go. `Course` says how far a caller has come: where it stands, with the replies that are left to it and
the calls that it has made. Every step of a caller keeps it on its course, and no one else's step
touches it. `InTurn` says who is in line: the holder of the cell first, and then those who wait, in
order of arrival. Every history preserves both (`conducted_history`).
-/

namespace ScopedSql

/-- The operation that a move issues, with the replies that the engine has for it. -/
def Move.issue? : Move → Option (Operation × List Reply)
  | .act (.issue operation replies) => some (operation, replies)
  | _ => none

/-- **The operations that a run issues**, with their replies. They are numbered as the tasks are. -/
def issued (moves : List Move) : List (Operation × List Reply) := moves.filterMap Move.issue?

/-- The reply to a call of a task; a missing reply is a plain success. -/
def replyAt (replies : List Reply) (n : Nat) : Reply := replies[n]?.getD {}

/-- The first `n` replies are successes. -/
def Succeed (replies : List Reply) (n : Nat) : Prop :=
  ∀ k < n, ∃ response, (replyAt replies k).result = .ok response

/-- The calls that prepare the first `n` transaction statements. -/
def preparing (n : Nat) : List Call := (TransactionVerb.all.take n).map fun verb => .prepare verb.sql

/-! ### The course of a caller -/

/-- **The course of a caller** for which the engine has these replies: the stage in which it stands,
the replies that are left, and the calls that it has made. -/
inductive Course (verb : TransactionVerb) (target : Option ScopeId) (replies : List Reply) :
    Stage → List Reply → List Call → Prop
  /-- It was not let in yet. -/
  | outside {stage : Stage} :
      stage.outside → stage.Suits verb target → Course verb target replies stage replies []
  /-- The gate has refused it. -/
  | refused {e : Fault} : e.barring → Course verb target replies (.finished (.error e)) replies []
  /-- It waits for its turn. -/
  | queued : Course verb target replies (.queued verb) replies []
  /-- It has prepared the first `n` statements. -/
  | prepares {n : Nat} {rest : List TransactionVerb} :
      n ≤ 3 → rest = TransactionVerb.all.drop n → Succeed replies n →
        Course verb target replies (.preparing verb rest) (replies.drop n) (preparing n)
  /-- It has prepared the first `n` statements and has asked for the next one. -/
  | asks {n : Nat} {reply : Reply} {rest : List TransactionVerb} :
      n < 3 → reply = replyAt replies n → rest = TransactionVerb.all.drop (n + 1) →
        Succeed replies n →
          Course verb target replies (.replying reply (.part verb rest)) (replies.drop (n + 1))
            (preparing (n + 1))
  /-- It has failed with the next statement. -/
  | fails {n : Nat} {e : Fault} :
      n < 3 → Succeed replies n → (replyAt replies n).result = .error e →
        Course verb target replies (.finished (.error e)) (replies.drop (n + 1)) (preparing (n + 1))
  /-- It runs its statement, after it has prepared all of them or none. -/
  | executes {n : Nat} {reply : Reply} :
      n = 0 ∨ n = 3 → reply = replyAt replies n → Succeed replies n →
        Course verb target replies (.replying reply .transacted) (replies.drop (n + 1))
          (preparing n ++ [verb.call])
  /-- It is over with its statement. -/
  | ends {n : Nat} :
      n = 0 ∨ n = 3 → Succeed replies n →
        Course verb target replies (.finished ((replyAt replies n).result.map fun _ => .done))
          (replies.drop (n + 1)) (preparing n ++ [verb.call])

section Course

variable {replies left : List Reply} {n : Nat} {verb next : TransactionVerb} {stage : Stage}
  {target : Option ScopeId} {rest : List TransactionVerb} {calls : List Call} {deed : Deed}
  {cell cell' : TransactionCell} {t : TaskId}

/-- Of no replies all are successes. -/
theorem succeed_zero (replies : List Reply) : Succeed replies 0 :=
  fun _ hk => absurd hk (Nat.not_lt_zero _)

/-- One more success: the first `n + 1` replies are successes if the first `n` are and the next one
is. -/
theorem Succeed.succ {response : Response} (h : Succeed replies n)
    (hr : (replyAt replies n).result = .ok response) : Succeed replies (n + 1) := by
  intro k hk
  rcases Nat.lt_succ_iff_lt_or_eq.mp hk with hk | rfl
  · exact h k hk
  · exact ⟨response, hr⟩

/-- If the first replies are successes, then so are fewer of them. -/
theorem Succeed.mono {k : Nat} (h : Succeed replies n) (hk : k ≤ n) : Succeed replies k :=
  fun i hi => h i (hi.trans_le hk)

/-- The reply that is next is that to the next call. -/
theorem head?_drop_replies (replies : List Reply) (n : Nat) :
    ((replies.drop n).head?.getD {}) = replyAt replies n := by
  rw [List.head?_drop, replyAt]

/-- **The statement that is next in an attempt.** -/
theorem drop_eq_cons (h : next :: rest = TransactionVerb.all.drop n) :
    n < 3 ∧ rest = TransactionVerb.all.drop (n + 1) ∧
      preparing (n + 1) = preparing n ++ [.prepare next.sql] := by
  have hnext : TransactionVerb.all[n]? = some next := by
    rw [← List.head?_drop, ← h, List.head?_cons]
  refine ⟨(List.getElem?_eq_some_iff.mp hnext).1, ?_, ?_⟩
  · rw [← List.tail_drop, ← h, List.tail_cons]
  · rw [preparing, List.take_add_one, hnext, List.map_append]
    rfl

/-- An attempt that has nothing left has prepared all. -/
theorem drop_eq_nil (h : [] = TransactionVerb.all.drop n) (hn : n ≤ 3) : n = 3 :=
  Nat.le_antisymm hn (List.drop_eq_nil_iff.mp h.symm)

/-- How far an attempt has come that has these statements left. -/
theorem length_rest (h : rest = TransactionVerb.all.drop n) (hn : n ≤ 3) : 3 - rest.length = n := by
  have hlen : TransactionVerb.all.length = 3 := rfl
  rw [h, List.length_drop, hlen]
  omega

/-- A caller that has prepared all statements or none runs its own. -/
theorem Course.run (hn : n = 0 ∨ n = 3) (hok : Succeed replies n) :
    Course verb target replies (.replying ((replies.drop n).head?.getD {}) .transacted)
      (replies.drop n).tail (preparing n ++ [verb.call]) := by
  rw [head?_drop_replies, List.tail_drop]
  exact .executes hn rfl hok

/-- A caller on its course stands in a stage that suits it. -/
theorem Course.suits (hc : Course verb target replies stage left calls) :
    stage.Suits verb target := by
  cases hc with
  | outside _ hs => exact hs
  | prepares => rfl
  | asks => rfl
  | queued => rfl
  | _ => trivial

/-- **Every step of a caller keeps it on its course.** -/
theorem Course.grants (hc : Course verb target replies stage left calls)
    (hg : cell.Grants t verb target stage cell' deed) :
    Course verb target replies (deed.task ⟨.transact verb target, left, stage⟩).stage
      (deed.task ⟨.transact verb target, left, stage⟩).replies (calls ++ deed.calls) := by
  cases hg with
  | nears ho ho' hs' =>
      cases hc with
      | outside => exact .outside ho' hs'
      | _ => cases ho
  | refused ho he =>
      cases hc with
      | outside => exact .refused he
      | _ => cases ho
  | first => cases hc with | outside => exact .prepares (Nat.zero_le 3) rfl (succeed_zero _)
  | later => cases hc with | outside => exact .queued
  | served hstage =>
      rcases hstage with ⟨s, rfl⟩ | rfl
      · cases hc with | outside => exact .run (.inl rfl) (succeed_zero _)
      · cases hc with
        | outside ho => cases ho
        | queued => exact .run (.inl rfl) (succeed_zero _)
  | begins =>
      cases hc with
      | outside ho => cases ho
      | queued => exact .prepares (Nat.zero_le 3) rfl (succeed_zero _)
  | prepares =>
      cases hc with
      | outside ho => cases ho
      | prepares hn hrest hok =>
          obtain ⟨hlt, hrest', hcalls⟩ := drop_eq_cons hrest
          rw [Deed.calls, ← hcalls, Deed.task, List.tail_drop, head?_drop_replies]
          exact .asks hlt rfl hrest' hok
  | succeeds hr =>
      cases hc with
      | outside ho => cases ho
      | asks hn hreply hrest hok =>
          subst hreply
          rw [Deed.calls, List.append_nil]
          exact .prepares hn hrest (hok.succ hr)
  | fails hr =>
      cases hc with
      | outside ho => cases ho
      | asks hn hreply hrest hok =>
          subst hreply
          rw [Deed.calls, List.append_nil]
          exact .fails hn hok hr
  | settles =>
      cases hc with
      | outside ho => cases ho
      | prepares hn hrest hok =>
          obtain rfl := drop_eq_nil hrest hn
          exact .run (.inr rfl) hok
  | ends =>
      cases hc with
      | outside ho => cases ho
      | executes hn hreply hok =>
          subst hreply
          rw [Deed.calls, List.append_nil]
          exact .ends hn hok

end Course

/-! ### Taking turns -/

/-- The holder of the cell and those who wait for it. -/
def TransactionCell.line (cell : TransactionCell) : List TaskId := cell.holder.toList ++ cell.queue

namespace Database

variable {db db' : Database} {t : TaskId} {x : Task} {m : Move} {es : List Event} {left : List Reply}
  {stage : Stage} {cell : TransactionCell} {deed : Deed} {verb : TransactionVerb}
  {target : Option ScopeId}

/-- **The callers take turns.** -/
structure InTurn (db : Database) : Prop where
  /-- No one waits where no one has the turn. -/
  idle : db.transaction.holder = none → db.transaction.queue = []
  /-- When all is prepared, there is no line. -/
  done : db.transaction.prepared → db.transaction.line = []
  /-- No one is in line twice. -/
  nodup : db.transaction.line.Nodup
  /-- Before that, the callers in line are those that wait for their turn or have it. -/
  lined_iff : db.transaction.prepared = false → ∀ t, t ∈ db.transaction.line ↔ db.lined t
  /-- Who makes an attempt has the turn. -/
  alone : ∀ t n, db.made? t = some n → db.transaction.holder = some t

/-- **All callers but one** are in line as they were. -/
def AgreeBut (db : Database) (t : TaskId) (db' : Database) : Prop :=
  ∀ i, t ≠ i → db'.lined i = db.lined i ∧ db'.made? i = db.made? i

/-- The holder is first in line. -/
theorem line_of_holder (ht : db.transaction.holder = some t) :
    db.transaction.line = t :: db.transaction.queue := by
  rw [TransactionCell.line, ht]
  rfl

section Step

variable {i u : TaskId} {r : Database × List Event}

/-- Who makes an attempt after a step has the turn before it, if the one who takes the step has. -/
theorem InTurn.holder_eq (hi : db.InTurn) (ho : db.AgreeBut t db')
    (hm : ∀ n, db'.made? t = some n → db.transaction.holder = some t) (i : TaskId) (n : Nat)
    (h : db'.made? i = some n) : db.transaction.holder = some i := by
  by_cases hti : t = i
  · exact hti ▸ hm n (hti ▸ h)
  · rw [(ho i hti).2] at h
    exact hi.alone i n h

/-- When the one who has the turn is out of it, no one makes an attempt. -/
theorem InTurn.made?_eq_none (hi : db.InTurn) (ho : db.AgreeBut t db')
    (ht : db.transaction.holder = some t) (hm : db'.made? t = none) (i : TaskId) :
    db'.made? i = none := by
  refine Option.eq_none_iff_forall_ne_some.mpr fun n h => ?_
  have hholder := hi.holder_eq ho (fun _ _ => ht) i n h
  obtain rfl : t = i := Option.some.inj (ht.symm.trans hholder)
  cases hm.symm.trans h

/-- Whoever comes first has the turn. -/
theorem InTurn.first (hi : db.InTurn) (ho : db.AgreeBut t db')
    (hp : db.transaction.prepared = false) (hn : db.transaction.holder = none)
    (hc : db'.transaction = { db.transaction with holder := some t }) (hl : db'.lined t) :
    db'.InTurn := by
  have hempty : db.transaction.line = [] := by rw [TransactionCell.line, hn, hi.idle hn]; rfl
  have hline : db'.transaction.line = [t] := by rw [TransactionCell.line, hc, hi.idle hn]; rfl
  refine ⟨fun hnone => ?_, fun hp' => ?_, ?_, fun _ i => ?_, fun i n hm => ?_⟩
  · rw [hc] at hnone
    cases hnone
  · rw [hc, hp] at hp'
    cases hp'
  · rw [hline]
    simp
  · rw [hline, List.mem_singleton]
    by_cases h : t = i
    · exact iff_of_true h.symm (h ▸ hl)
    · rw [(ho i h).1, ← hi.lined_iff hp i, hempty]
      exact iff_of_false (Ne.symm h) List.not_mem_nil
  · rw [hc]
    by_cases h : t = i
    · rw [h]
    · rw [(ho i h).2] at hm
      cases hn.symm.trans (hi.alone i n hm)

/-- Whoever comes while someone has the turn waits behind all others. -/
theorem InTurn.later (hi : db.InTurn) (ho : db.AgreeBut t db')
    (hp : db.transaction.prepared = false) (hu : db.transaction.holder = some u)
    (hc : db'.transaction = { db.transaction with queue := db.transaction.queue ++ [t] })
    (hl : db.lined t = false) (hl' : db'.lined t) (hm : db'.made? t = none) : db'.InTurn := by
  have hline : db'.transaction.line = db.transaction.line ++ [t] := by
    rw [TransactionCell.line, hc, TransactionCell.line, List.append_assoc]
  refine ⟨fun hnone => ?_, fun hp' => ?_, ?_, fun _ i => ?_, ?_⟩
  · rw [hc, hu] at hnone
    cases hnone
  · rw [hc, hp] at hp'
    cases hp'
  · rw [hline]
    refine List.nodup_append.mpr ⟨hi.nodup, by simp, fun i hmem j hj => ?_⟩
    rintro rfl
    rw [List.mem_singleton.mp hj, hi.lined_iff hp, hl] at hmem
    cases hmem
  · rw [hline, List.mem_append, List.mem_singleton]
    by_cases h : t = i
    · exact iff_of_true (.inr h.symm) (h ▸ hl')
    · rw [(ho i h).1, ← hi.lined_iff hp i]
      exact or_iff_left (Ne.symm h)
  · rw [hc]
    refine hi.holder_eq ho fun n h => ?_
    cases hm.symm.trans h

/-- Whoever fails hands the turn to the next one. -/
theorem InTurn.handed (hi : db.InTurn) (ho : db.AgreeBut t db')
    (ht : db.transaction.holder = some t)
    (hc : db'.transaction = { db.transaction with
      holder := db.transaction.queue.head?, queue := db.transaction.queue.tail })
    (hl : db'.lined t = false) (hm : db'.made? t = none) : db'.InTurn := by
  have hline := line_of_holder ht
  have hline' : db'.transaction.line = db.transaction.queue := by
    rw [TransactionCell.line, hc]
    cases db.transaction.queue <;> rfl
  have hnodup := hi.nodup
  rw [hline, List.nodup_cons] at hnodup
  refine ⟨fun hnone => ?_, fun hp' => ?_, ?_, fun hp i => ?_, fun i n hmade => ?_⟩
  · rw [hc] at hnone ⊢
    rw [List.head?_eq_none_iff.mp hnone, List.tail_nil]
  · rw [hc] at hp'
    rw [hi.done hp'] at hline
    cases hline
  · rw [hline']
    exact hnodup.2
  · rw [hc] at hp
    rw [hline']
    by_cases h : t = i
    · subst h
      exact iff_of_false hnodup.1 (by rw [hl]; exact Bool.false_ne_true)
    · rw [(ho i h).1, ← hi.lined_iff hp i, hline, List.mem_cons]
      exact (or_iff_right (Ne.symm h)).symm
  · cases (hi.made?_eq_none ho ht hm i).symm.trans hmade

/-- When all is prepared, the line is dissolved. -/
theorem InTurn.settled (hi : db.InTurn) (ho : db.AgreeBut t db')
    (ht : db.transaction.holder = some t) (hc : db'.transaction = ⟨true, none, []⟩)
    (hm : db'.made? t = none) : db'.InTurn := by
  have hline : db'.transaction.line = [] := by rw [TransactionCell.line, hc]; rfl
  refine ⟨fun _ => by rw [hc], fun _ => hline, hline ▸ List.nodup_nil, fun hp => ?_,
    fun i n hmade => ?_⟩
  · rw [hc] at hp
    cases hp
  · cases (hi.made?_eq_none ho ht hm i).symm.trans hmade

/-- A step that leaves the cell as it is keeps the turns. -/
theorem InTurn.same (hi : db.InTurn) (ho : db.AgreeBut t db')
    (hc : db'.transaction = db.transaction)
    (hl : db.transaction.prepared = false → db'.lined t = db.lined t)
    (hm : ∀ n, db'.made? t = some n → db.transaction.holder = some t) : db'.InTurn := by
  refine ⟨?_, ?_, ?_, fun hp i => ?_, ?_⟩
  · rw [hc]
    exact hi.idle
  · rw [hc]
    exact hi.done
  · rw [hc]
    exact hi.nodup
  · rw [hc] at hp ⊢
    by_cases h : t = i
    · rw [← h, hl hp]
      exact hi.lined_iff hp t
    · rw [(ho i h).1]
      exact hi.lined_iff hp i
  · rw [hc]
    exact hi.holder_eq ho hm

/-- A step of one caller leaves all others in line where they are. -/
theorem Does.agreeBut (hd : db.Does t x cell deed r) : db.AgreeBut t r.1 := fun i h => by
  rw [lined, made?, hd.caller?_ne h, lined, made?]
  exact ⟨rfl, rfl⟩

/-- **Every step of a caller keeps the turns.** -/
theorem InTurn.grants (hi : db.InTurn)
    (hx : db.tasks[t]? = some ⟨.transact verb target, left, stage⟩)
    (hd : db.Does t ⟨.transact verb target, left, stage⟩ cell deed r)
    (hg : db.transaction.Grants t verb target stage cell deed) : r.1.InTurn := by
  have hold : db.caller? t = some ⟨.transact verb target, left, stage⟩ :=
    caller?_eq_some_iff.mpr ⟨hx, verb, target, rfl⟩
  have hlined : db.lined t = stage.lined := lined_of_caller? hold
  have hmade : db.made? t = stage.made? := made?_of_caller? hold
  have hlined' := lined_of_caller? (hd.caller? hx)
  have hmade' := made?_of_caller? (hd.caller? hx)
  have ho := hd.agreeBut
  have hcell := hd.cell
  -- whoever is out of line before and after the step
  have hapart : r.1.transaction = db.transaction → stage.lined = false →
      r.1.lined t = false → r.1.made? t = none → r.1.InTurn := fun hc hl hl' hm' => by
    refine hi.same ho hc (fun _ => hl'.trans (hlined.trans hl).symm) fun n hn => ?_
    rw [hm'] at hn
    cases hn
  cases hg with
  | nears ho₁ ho₂ =>
      obtain ⟨hl', hm'⟩ := Stage.apart (.inl ho₂)
      exact hapart hcell (Stage.apart (.inl ho₁)).1 (hlined'.trans hl') (hmade'.trans hm')
  | refused ho₁ => exact hapart hcell (Stage.apart (.inl ho₁)).1 hlined' hmade'
  | first hp hn => exact hi.first ho hp hn hcell hlined'
  | later hp hu => exact hi.later ho hp hu hcell hlined hlined' hmade'
  | served hstage hp =>
      refine hi.same ho hcell (fun hn => ?_) fun n hn => ?_
      · rw [hp] at hn
        cases hn
      · rw [hmade'] at hn
        cases hn
  | begins _ hh => exact hi.same ho hcell (fun _ => hlined'.trans hlined.symm) fun _ _ => hh
  | prepares =>
      exact hi.same ho hcell (fun _ => hlined'.trans hlined.symm) fun _ _ => hi.alone t _ hmade
  | succeeds =>
      exact hi.same ho hcell (fun _ => hlined'.trans hlined.symm) fun _ _ => hi.alone t _ hmade
  | fails => exact hi.handed ho (hi.alone t _ hmade) hcell hlined' hmade'
  | settles => exact hi.settled ho (hi.alone t _ hmade) hcell hmade'
  | ends => exact hapart hcell rfl hlined' hmade'

/-- **A caller after a move** is new, or as it was, or has taken the step of the move. -/
theorem Treats.caller (h : db.Treats m db' es) (hx : db'.caller? i = some x) :
    (db.tasks[i]? = none ∧ i = db.tasks.length ∧ m.issue? = some (x.operation, x.replies) ∧
        x.stage = .fresh ∧ callsOf i es = []) ∨
      (db.caller? i = some x ∧ callsOf i es = []) ∨
      ∃ verb target left stage deed,
        db.caller? i = some ⟨.transact verb target, left, stage⟩ ∧
          x = deed.task ⟨.transact verb target, left, stage⟩ ∧
            db.transaction.Grants i verb target stage db'.transaction deed ∧
              callsOf i es = deed.calls := by
  have hx' := caller?_eq_some_iff.mp hx
  cases h with
  | comes hm _ ht he =>
      have hnone : callsOf i es = [] := by rw [callsOf_eq, he]; rfl
      rw [ht, List.getElem?_append] at hx'
      split at hx'
      · exact .inr (.inl ⟨caller?_eq_some_iff.mpr hx', hnone⟩)
      case isFalse hlt =>
        obtain ⟨hzero, rfl⟩ : i - db.tasks.length = 0 ∧ _ = x := by
          simpa [List.getElem?_singleton] using hx'.1
        have hle := Nat.le_of_not_lt hlt
        exact .inl ⟨List.getElem?_eq_none hle, Nat.le_antisymm (Nat.sub_eq_zero_iff_le.mp hzero) hle,
          by rw [hm]; rfl, rfl, hnone⟩
  | aside _ hcallers hcalls =>
      rw [hcallers i] at hx
      refine .inr (.inl ⟨hx, List.eq_nil_iff_forall_not_mem.mpr fun call hmem => ?_⟩)
      cases hx.symm.trans (hcalls _ (mem_callsOf_iff.mp hmem))
  | @turn t verb target left stage cell deed hold hd hg =>
      by_cases hi : t = i
      · subst hi
        refine .inr (.inr ⟨verb, target, left, stage, deed,
          caller?_eq_some_iff.mpr ⟨hold, verb, target, rfl⟩, ?_, ?_, hd.callsOf⟩)
        · exact (Option.some.inj ((hd.caller? hold).symm.trans hx)).symm
        · rw [show db'.transaction = cell from hd.cell]
          exact hg
      · refine .inr (.inl ⟨?_, hd.callsOf_ne hi⟩)
        rw [← hd.caller?_ne hi]
        exact hx

/-- What is prepared stays prepared. -/
theorem Treats.prepared (h : db.Treats m db' es) (hp : db.transaction.prepared) :
    db'.transaction.prepared := by
  cases h with
  | comes _ hc => rw [hc, hp]
  | aside hc => rw [hc, hp]
  | turn _ hd hg =>
      rw [show db'.transaction = _ from hd.cell]
      cases hg with
      | settles => rfl
      | _ => exact hp

/-- A task that comes is not in line. -/
theorem apart_of_comes {o : Operation} (ht : db'.tasks = db.tasks ++ [⟨o, left, .fresh⟩])
    (i : TaskId) : db'.lined i = db.lined i ∧ db'.made? i = db.made? i := by
  rw [lined, made?, lined, made?, caller?, caller?, ht, List.getElem?_append]
  split
  case isTrue => exact ⟨rfl, rfl⟩
  case isFalse hlt =>
    rw [List.getElem?_eq_none (Nat.le_of_not_lt hlt), List.getElem?_singleton]
    split
    · cases o <;> exact ⟨rfl, rfl⟩
    · exact ⟨rfl, rfl⟩

/-- **Every move keeps the turns.** -/
theorem InTurn.treats (hi : db.InTurn) (h : db.Treats m db' es) : db'.InTurn := by
  have hstay : (∀ i, db'.lined i = db.lined i ∧ db'.made? i = db.made? i) →
      db'.transaction = db.transaction → db'.InTurn := fun hall hc => by
    refine hi.same (t := 0) (fun i _ => hall i) hc (fun _ => (hall 0).1) fun n hn => ?_
    rw [(hall 0).2] at hn
    exact hi.alone 0 n hn
  cases h with
  | comes _ hc ht => exact hstay (apart_of_comes ht) hc
  | aside hc hcallers =>
      refine hstay (fun i => ?_) hc
      rw [lined, made?, hcallers i]
      exact ⟨rfl, rfl⟩
  | turn hx hd hg => exact hi.grants hx hd hg

end Step

/-- **Tasks are numbered as the operations** that were issued. -/
theorem operations_move (db : Database) (m : Move) : (db.move m).1.tasks.map Task.operation =
    db.tasks.map Task.operation ++ m.issue?.toList.map Prod.fst := by
  obtain ⟨c, hh⟩ := db.exists_happens m
  generalize (db.move m).1 = db', (db.move m).2 = es at hh
  cases hh with
  | issued ht => rw [ht, List.map_append]; rfl
  | served action hne ht =>
      rw [ht]
      cases action <;> first | exact absurd rfl (hne _ _) | exact (List.append_nil _).symm
  | @strode t x x' _ _ _ _ hx hst ht =>
      have hop : (db.tasks.map Task.operation)[t]? = some x.operation := by
        rw [List.getElem?_map, hx]
        rfl
      obtain ⟨hlt, heq⟩ := List.getElem?_eq_some_iff.mp hop
      rw [ht, List.map_set, hst.operation, ← heq, List.set_getElem_self hlt]
      exact (List.append_nil _).symm
  | stuck => exact (List.append_nil _).symm

end Database

namespace History

variable {h : History} {m : Move} {moves : List Move} {interval : Nat} {timed : Bool} {t : TaskId}
  {issues : List (Operation × List Reply)} {verb : TransactionVerb} {target : Option ScopeId}
  {replies : List Reply}

/-- **What every history preserves** for the callers that these issues bring. -/
structure Conducted (h : History) (issues : List (Operation × List Reply)) : Prop where
  /-- Only callers are at work on transaction statements. -/
  worked : ∀ (t : TaskId) x, h.db.tasks[t]? = some x → x.stage.transacting →
    ∃ verb target, x.operation = .transact verb target
  /-- Every caller is on its course. -/
  callers : ∀ t x, h.db.caller? t = some x → ∃ verb target replies,
    x.operation = .transact verb target ∧ issues[t]? = some (.transact verb target, replies) ∧
      Course verb target replies x.stage x.replies (h.callsOf t)
  /-- Who has run a statement has found all of them prepared. -/
  whole : ∀ t x, h.db.caller? t = some x → ∀ verb : TransactionVerb, verb.call ∈ h.callsOf t →
    h.db.transaction.prepared
  /-- The callers take turns. -/
  turns : h.db.InTurn

/-- **Every move treats the callers and the cell by the rules**, because the stages suit the
operations. -/
theorem Conducted.treats (hc : h.Conducted issues) (hs : h.Sound) (m : Move) :
    h.db.Treats m (h.move m).db (h.db.move m).2 := by
  refine Database.exists_treats (fun t x hx verb target ho => ?_) (fun t x hx hv => ?_) m
  · obtain ⟨verb', target', replies, ho', -, hcourse⟩ :=
      hc.callers t x (Database.caller?_eq_some_iff.mpr ⟨hx, verb, target, ho⟩)
    obtain ⟨rfl, rfl⟩ : verb = verb' ∧ target = target' := by simpa [ho] using ho'
    exact hcourse.suits
  · obtain ⟨o, left, stage⟩ := x
    rintro (hb | _)
    · obtain ⟨verb, target, rfl⟩ := hc.worked t _ hx hb
      cases hv
    · obtain ⟨target, he, -⟩ := hs.fits t _ hx
      rw [Operation.eq_transact he] at hv
      cases hv

/-- A caller that is new after a move has made no call, and what the others have made grows by what
they make. -/
theorem Conducted.callers_move (hc : h.Conducted issues) (hs : h.Sound)
    (hm : ∀ a, m.issue? = some a → issues[h.db.tasks.length]? = some a) (t : TaskId) (x : Task)
    (hx : (h.move m).db.caller? t = some x) : ∃ verb target replies,
      x.operation = .transact verb target ∧ issues[t]? = some (.transact verb target, replies) ∧
        Course verb target replies x.stage x.replies ((h.move m).callsOf t) := by
  rw [callsOf_move]
  rcases (hc.treats hs m).caller hx with ⟨-, rfl, hissue, hf, hcalls⟩ | ⟨hold, hcalls⟩ |
    ⟨verb, target, left, stage, deed, hold, rfl, hg, hcalls⟩
  · obtain ⟨-, verb, target, ho⟩ := Database.caller?_eq_some_iff.mp hx
    refine ⟨verb, target, x.replies, ho, ho ▸ hm _ hissue, ?_⟩
    rw [hcalls, List.append_nil, hs.uncalled _ (by simp), hf]
    exact .outside rfl trivial
  · rw [hcalls, List.append_nil]
    exact hc.callers t x hold
  · obtain ⟨verb', target', replies, ho, hissue, hcourse⟩ := hc.callers t _ hold
    obtain ⟨rfl, rfl⟩ : verb = verb' ∧ target = target' := by simpa using ho
    rw [hcalls]
    refine ⟨verb, target, replies, ?_, hissue, hcourse.grants hg⟩
    cases deed <;> rfl

/-- **Who runs a statement in a move** finds all of them prepared. -/
theorem Conducted.whole_move (hc : h.Conducted issues) (hs : h.Sound) (m : Move) (t : TaskId)
    (x : Task) (hx : (h.move m).db.caller? t = some x) (verb : TransactionVerb)
    (hv : verb.call ∈ (h.move m).callsOf t) : (h.move m).db.transaction.prepared := by
  have htreats := hc.treats hs m
  rw [callsOf_move] at hv
  rcases htreats.caller hx with ⟨hnone, -, -, -, hcalls⟩ | ⟨hold, hcalls⟩ |
    ⟨verb', target, left, stage, deed, hold, -, hg, hcalls⟩
  · rw [hcalls, hs.uncalled t (by simp [hnone])] at hv
    cases hv
  · rw [hcalls, List.append_nil] at hv
    exact htreats.prepared (hc.whole t x hold verb hv)
  · rw [hcalls] at hv
    rcases List.mem_append.mp hv with hv | hv
    · exact htreats.prepared (hc.whole t _ hold verb hv)
    · -- a statement is run when all is prepared, or as the step that completes an attempt
      generalize (h.move m).db.transaction = cell at hg ⊢
      cases hg with
      | served _ hp => exact hp
      | settles => rfl
      | prepares => simp [Deed.calls, TransactionVerb.call] at hv
      | _ => cases hv

/-- After a move, too, only callers are at work on transaction statements. -/
theorem Conducted.worked_move (hc : h.Conducted issues) (hs : h.Sound) (m : Move) (t : TaskId)
    (x : Task) (hx : (h.move m).db.tasks[t]? = some x) (hw : x.stage.transacting) :
    ∃ verb target, x.operation = .transact verb target := by
  obtain ⟨c, hh⟩ := h.db.exists_happens m
  rcases hh.task hx with ⟨-, hf, -⟩ | ⟨y, hy, ⟨rfl, -⟩ | ⟨-, hst⟩⟩
  · rw [hf] at hw
    cases hw
  · exact hc.worked t x hy hw
  · exact hst.transact (hs.fits t y hy) (hc.worked t y hy) hw

/-- **Every move conducts the callers.** -/
theorem Conducted.move (hc : h.Conducted issues) (hs : h.Sound)
    (hm : ∀ a, m.issue? = some a → issues[h.db.tasks.length]? = some a) :
    (h.move m).Conducted issues where
  worked := hc.worked_move hs m
  callers := hc.callers_move hs hm
  whole := hc.whole_move hs m
  turns := hc.turns.treats (hc.treats hs m)

/-- One more move brings at most one more issue. -/
theorem issued_concat (moves : List Move) (m : Move) :
    issued (moves ++ [m]) = issued moves ++ m.issue?.toList := by
  rw [issued, List.filterMap_append, issued]
  cases hm : m.issue? <;> simp [hm]

/-- The tasks of a history are what was issued. -/
theorem operations_history (interval : Nat) (timed : Bool) (moves : List Move) :
    (history interval timed moves).db.tasks.map Task.operation = (issued moves).map Prod.fst := by
  induction moves using List.reverseRecOn with
  | nil => rfl
  | append_singleton moves m ih =>
      rw [history_concat, issued_concat, List.map_append, ← ih]
      exact Database.operations_move _ m

/-- **Every history conducts its callers.** -/
theorem conducted_history (interval : Nat) (timed : Bool) (hi : issued moves <+: issues) :
    (history interval timed moves).Conducted issues := by
  induction moves using List.reverseRecOn with
  | nil =>
      have hnone : ∀ t : TaskId, (history interval timed []).db.caller? t = none := fun _ => rfl
      refine ⟨fun t x hx => ?_, fun t x hx => ?_, fun t x hx => ?_, ?_⟩
      · cases (tasks_opening interval timed t).symm.trans hx
      · cases (hnone t).symm.trans hx
      · cases (hnone t).symm.trans hx
      · refine ⟨fun _ => rfl, fun _ => rfl, List.nodup_nil, fun _ t => ?_, fun t n hm => ?_⟩
        · exact iff_of_false List.not_mem_nil Bool.false_ne_true
        · cases hm
  | append_singleton moves m ih =>
      rw [issued_concat] at hi
      rw [history_concat]
      refine (ih ((List.prefix_append _ _).trans hi)).move (sound_history interval timed moves) ?_
      intro a ha
      have hlen := congrArg List.length (operations_history interval timed moves)
      rw [List.length_map, List.length_map] at hlen
      obtain ⟨more, rfl⟩ := hi
      rw [hlen, ha, Option.toList_some, List.append_assoc, List.getElem?_append_right (Nat.le_refl _),
        Nat.sub_self]
      rfl

end History

end ScopedSql
