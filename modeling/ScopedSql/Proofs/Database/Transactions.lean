import ScopedSql.Proofs.Database.Callers

/-!
# The transaction statements are prepared as one unit

An attempt to prepare the transaction statements takes many steps of one caller. `Advances` says what
one move does to the attempt that is under way, and from it follows what is seen of all of them
(`Tries`): the prepare calls are those of one attempt after the other, each but the last has failed,
and a complete attempt is the last one for good.
-/

namespace ScopedSql

/-- Whether a call prepares a statement. -/
def Call.isPrepare : Call → Bool
  | .prepare _ => true
  | _ => false

/-- **An attempt to prepare the transaction statements.** -/
structure Attempt where
  /-- The task that makes it. -/
  task : TaskId
  /-- How many statements it has asked for. -/
  made : Nat

/-- The prepare calls of an attempt: the transaction statements in order, as far as it has come. -/
def Attempt.calls (a : Attempt) : List (TaskId × Call) := (preparing a.made).map (a.task, ·)

/-- An attempt has asked for all statements, and all of them are prepared. -/
def Attempt.Complete (a : Attempt) (replies : List Reply) : Prop := a.made = 3 ∧ Succeed replies 3

/-- The replies that the engine has for a task. -/
def repliesOf (issues : List (Operation × List Reply)) (t : TaskId) : List Reply :=
  ((issues[t]?).map Prod.snd).getD []

namespace Database

variable {db db' : Database} {a : Attempt}

/-- The attempt that is under way. -/
def underWay? (db : Database) : Option Attempt :=
  db.transaction.holder.bind fun t => (db.made? t).map fun n => ⟨t, n⟩

/-- The attempt that is under way is the one caller with something asked for. -/
theorem InTurn.underWay?_eq_some (hi : db.InTurn) :
    db.underWay? = some a ↔ db.made? a.task = some a.made := by
  rw [underWay?, Option.bind_eq_some_iff]
  constructor
  · rintro ⟨t, -, hm⟩
    obtain ⟨n, hn, rfl⟩ := Option.map_eq_some_iff.mp hm
    exact hn
  · exact fun hm => ⟨a.task, hi.alone _ _ hm, by rw [hm]; rfl⟩

/-- As long as an attempt is under way, not all is prepared. -/
theorem InTurn.prepared_eq (hi : db.InTurn) (ha : db.underWay? = some a) :
    db.transaction.prepared = false := by
  refine Bool.eq_false_iff.mpr fun hp => ?_
  have hline := line_of_holder (hi.alone _ _ (hi.underWay?_eq_some.mp ha))
  rw [hi.done hp] at hline
  cases hline

/-- A step that takes the one who has the turn out of it leaves no attempt under way. -/
theorem InTurn.underWay?_eq_none {t : TaskId} (hi : db.InTurn) (hi' : db'.InTurn)
    (ho : db.AgreeBut t db') (ht : db.transaction.holder = some t) (hm : db'.made? t = none) :
    db'.underWay? = none := by
  refine Option.eq_none_iff_forall_ne_some.mpr fun a ha => ?_
  cases (hi.made?_eq_none ho ht hm a.task).symm.trans (hi'.underWay?_eq_some.mp ha)

end Database

namespace History

variable {h h' : History} {m : Move} {moves : List Move} {interval : Nat} {timed : Bool}
  {t : TaskId} {x : Task} {e : Fault} {a : Attempt} {n : Nat} {verb : TransactionVerb}
  {target : Option ScopeId} {issues : List (Operation × List Reply)} {replies : List Reply}
  {failed : List Attempt} {last : Option Attempt}

/-- **The prepare calls that callers have made**, in order. -/
def preparations (h : History) : List (TaskId × Call) :=
  h.trace.filter fun a => (h.db.caller? a.1).isSome && a.2.isPrepare

/-- A caller waits for its turn. -/
def Queues (h : History) (t : TaskId) : Prop :=
  ∃ x verb, h.db.caller? t = some x ∧ x.stage = .queued verb

/-- **An attempt has failed**: its first statements were prepared and the one after them was not, the
error was returned to its caller, and its caller has run no statement. -/
structure Failed (h : History) (a : Attempt) (replies : List Reply) (e : Fault) : Prop where
  /-- It has stopped at the first failure. -/
  stopped : ∃ n < 3, a.made = n + 1 ∧ Succeed replies n ∧ (replyAt replies n).result = .error e
  /-- The caller has got the error. -/
  result : h.result? a.task = some (.error e)
  /-- The caller has made no other calls. -/
  calls : h.callsOf a.task = preparing a.made

/-- **An attempt is under way**: all statements before the last one that it has asked for were
prepared. -/
structure UnderWay (h : History) (a : Attempt) (replies : List Reply) : Prop where
  /-- It has asked for three statements at most. -/
  made : a.made ≤ 3
  /-- It has met no failure. -/
  passed : Succeed replies (a.made - 1)
  /-- The caller is not over. -/
  result : h.result? a.task = none
  /-- The caller has made no other calls. -/
  calls : h.callsOf a.task = preparing a.made

/-- **How a caller fares** for which the engine has these replies. -/
inductive Fares (h : History) (t : TaskId) (verb : TransactionVerb) (replies : List Reply) : Prop
  /-- It waits at the gate or for its turn. -/
  | waits : h.result? t = none → h.callsOf t = [] → Fares h t verb replies
  /-- The gate has refused it. -/
  | refused {e : Fault} :
      e.barring → h.result? t = some (.error e) → h.callsOf t = [] → Fares h t verb replies
  /-- It makes its attempt. -/
  | prepares {n : Nat} : h.UnderWay ⟨t, n⟩ replies → Fares h t verb replies
  /-- Its attempt has failed. -/
  | fails {n : Nat} {e : Fault} : h.Failed ⟨t, n⟩ replies e → Fares h t verb replies
  /-- It runs its statement, after a complete attempt of its own or without any. -/
  | executes {n : Nat} :
      n = 0 ∨ n = 3 → Succeed replies n → h.result? t = none →
        h.callsOf t = preparing n ++ [verb.call] → Fares h t verb replies
  /-- It has run its statement, and its result is what the engine answered. -/
  | ends {n : Nat} :
      n = 0 ∨ n = 3 → Succeed replies n →
        h.result? t = some ((replyAt replies n).result.map fun _ => .done) →
          h.callsOf t = preparing n ++ [verb.call] → Fares h t verb replies

/-! ### What a move does to attempts -/

/-- A task stays the caller that it is. -/
theorem isSome_caller?_move (hx : h.db.tasks[t]? = some x) (m : Move) :
    ((h.move m).db.caller? t).isSome = (h.db.caller? t).isSome := by
  obtain ⟨c, hh⟩ := h.db.exists_happens m
  obtain ⟨x', hx', ho, -⟩ := hh.exists_task hx
  rw [Database.caller?, Database.caller?, show (h.move m).db.tasks[t]? = some x' from hx', hx]
  simp only [Option.filter_some, ho]
  split <;> rfl

/-- The prepare calls of a history grow by those of the move. -/
theorem Sound.preparations_move (hs : h.Sound) (m : Move) : (h.move m).preparations =
    h.preparations ++ ((h.db.move m).2.filterMap Event.called?).filter fun a =>
      ((h.move m).db.caller? a.1).isSome && a.2.isPrepare := by
  rw [preparations, trace_move, List.filter_append, preparations]
  refine congrArg (· ++ _) (List.filter_congr fun a ha => ?_)
  obtain ⟨t, call⟩ := a
  obtain ⟨x, hx⟩ : ∃ x, h.db.tasks[t]? = some x := by
    refine Option.ne_none_iff_exists'.mp fun hnone => ?_
    have hmem : call ∈ h.callsOf t := mem_callsOf_iff.mpr ha
    rw [hs.uncalled t (by simp [hnone])] at hmem
    cases hmem
  rw [isSome_caller?_move hx]

/-- **What one move does to the attempt that is under way.** -/
inductive Advances (h : History) (replies : TaskId → List Reply) (h' : History) : Prop
  /-- Nothing. -/
  | rests :
      h'.preparations = h.preparations → h'.db.underWay? = h.db.underWay? →
        h'.db.transaction.prepared = h.db.transaction.prepared → Advances h replies h'
  /-- A caller begins one. -/
  | begins {t : TaskId} :
      h'.preparations = h.preparations → h.db.transaction.prepared = false →
        h'.db.transaction.prepared = false → h.db.underWay? = none →
          h'.db.underWay? = some ⟨t, 0⟩ → h.result? t = none → Advances h replies h'
  /-- It asks for the next statement. -/
  | asks {t : TaskId} {n : Nat} {call : Call} :
      n < 3 → h'.preparations = h.preparations ++ [(t, call)] → preparing (n + 1) = preparing n ++ [call] →
        h'.db.transaction.prepared = h.db.transaction.prepared →
          h.db.underWay? = some ⟨t, n⟩ → h'.db.underWay? = some ⟨t, n + 1⟩ → Advances h replies h'
  /-- It fails. -/
  | fails {a : Attempt} {e : Fault} :
      h'.preparations = h.preparations →
        h'.db.transaction.prepared = h.db.transaction.prepared → h.db.underWay? = some a →
          h'.db.underWay? = none → h'.Failed a (replies a.task) e → Advances h replies h'
  /-- It is complete. -/
  | settles {a : Attempt} :
      h'.preparations = h.preparations → h'.db.transaction.prepared → h.db.underWay? = some a →
        a.Complete (replies a.task) → Advances h replies h'

/-- The replies of a caller are those that it was issued with. -/
theorem repliesOf_eq {o : Operation} (hi : issues[t]? = some (o, replies)) :
    repliesOf issues t = replies := by
  rw [repliesOf, hi]
  rfl

/-- The result of a caller is that of its task. -/
theorem result?_of_caller? (hx : h.db.caller? t = some x) : h.result? t = x.result? := by
  rw [result?, (Database.caller?_eq_some_iff.mp hx).1, Option.bind_some]

/-- What a caller prepares in its step. -/
theorem Sound.preparations_of_does {left : List Reply} {stage : Stage} {cell : TransactionCell}
    {deed : Deed} (hs : h.Sound)
    (hx : h.db.tasks[t]? = some ⟨.transact verb target, left, stage⟩)
    (hd : h.db.Does t ⟨.transact verb target, left, stage⟩ cell deed (h.db.move m)) :
    (h.move m).preparations =
      h.preparations ++ (deed.calls.filter Call.isPrepare).map (t, ·) := by
  have hnew : (h.move m).db.caller? t = _ := hd.caller? hx
  rw [hs.preparations_move, hd.calls]
  cases deed with
  | goes => rfl
  | asks call purpose =>
      cases hcall : call.isPrepare <;> simp [Deed.calls, hnew, hcall]

/-- A step in which a caller neither asks for a statement nor begins or ends an attempt leaves the
attempt that is under way alone. -/
theorem Conducted.rests {replies : TaskId → List Reply} (hc : h.Conducted issues)
    (hc' : (h.move m).Conducted issues) (ho : h.db.AgreeBut t (h.move m).db)
    (hp : (h.move m).preparations = h.preparations)
    (hq : (h.move m).db.transaction.prepared = h.db.transaction.prepared)
    (hm : (h.move m).db.made? t = h.db.made? t) : h.Advances replies (h.move m) := by
  refine .rests hp (Option.ext fun a => ?_) hq
  rw [hc'.turns.underWay?_eq_some, hc.turns.underWay?_eq_some]
  by_cases hi : t = a.task
  · rw [← hi, hm]
  · rw [(ho _ hi).2]

/-- **A step of a caller advances** the attempt that is under way, or leaves it alone. -/
theorem Conducted.advances_of_grants {left : List Reply} {stage : Stage} {cell : TransactionCell}
    {deed : Deed} (hc : h.Conducted issues) (hc' : (h.move m).Conducted issues) (hs : h.Sound)
    (hx : h.db.tasks[t]? = some ⟨.transact verb target, left, stage⟩)
    (hd : h.db.Does t ⟨.transact verb target, left, stage⟩ cell deed (h.db.move m))
    (hg : h.db.transaction.Grants t verb target stage cell deed) :
    h.Advances (repliesOf issues) (h.move m) := by
  have hold : h.db.caller? t = some ⟨.transact verb target, left, stage⟩ :=
    Database.caller?_eq_some_iff.mpr ⟨hx, verb, target, rfl⟩
  have hnew : (h.move m).db.caller? t = _ := hd.caller? hx
  have hmade := Database.made?_of_caller? hold
  have hmade' := Database.made?_of_caller? hnew
  have hothers : h.db.AgreeBut t (h.move m).db := hd.agreeBut
  have hcell : (h.move m).db.transaction = cell := hd.cell
  have hcalls : (h.move m).callsOf t = h.callsOf t ++ deed.calls := by
    rw [callsOf_move, hd.callsOf]
  have hprep := hs.preparations_of_does hx hd
  have hunder : ∀ n, h.db.made? t = some n → h.db.underWay? = some ⟨t, n⟩ :=
    fun n hn => hc.turns.underWay?_eq_some.mpr hn
  have hunder' : ∀ n, (h.move m).db.made? t = some n → (h.move m).db.underWay? = some ⟨t, n⟩ :=
    fun n hn => hc'.turns.underWay?_eq_some.mpr hn
  have hrests : deed.calls.filter Call.isPrepare = [] →
      cell.prepared = h.db.transaction.prepared →
        (h.move m).db.made? t = h.db.made? t → h.Advances (repliesOf issues) (h.move m) := by
    intro hnone hprepared hsame
    rw [hnone] at hprep
    exact hc.rests hc' hothers (hprep.trans (List.append_nil _)) (hcell ▸ hprepared) hsame
  obtain ⟨verb', target', replies, ho, hissue, hcourse⟩ := hc.callers t _ hold
  obtain ⟨rfl, rfl⟩ : verb = verb' ∧ target = target' := by simpa using ho
  have hreplies := repliesOf_eq hissue
  generalize hbefore : h.callsOf t = calls at hcourse
  cases hg with
  | nears ho₁ ho₂ =>
      refine hrests rfl rfl ?_
      rw [hmade, hmade']
      exact (Stage.apart (.inl ho₂)).2.trans (Stage.apart (.inl ho₁)).2.symm
  | refused ho₁ =>
      refine hrests rfl rfl ?_
      rw [hmade, hmade']
      exact (Stage.apart (.inl ho₁)).2.symm
  | first hp hn =>
      refine .begins (hprep.trans (List.append_nil _)) hp (by rw [hcell]; exact hp) ?_
        (hunder' 0 hmade') ?_
      · rw [Database.underWay?, hn, Option.bind_none]
      · rw [result?_of_caller? hold]
        rfl
  | later => exact hrests rfl rfl (hmade'.trans hmade.symm)
  | served hstage =>
      refine hrests rfl rfl (hmade'.trans (Eq.symm ?_))
      rw [hmade]
      rcases hstage with ⟨s, rfl⟩ | rfl <;> rfl
  | begins hp hh =>
      refine .begins (hprep.trans (List.append_nil _)) hp (by rw [hcell]; exact hp) ?_
        (hunder' 0 hmade') ?_
      · rw [Database.underWay?, hh, Option.bind_some, hmade]
        rfl
      · rw [result?_of_caller? hold]
        rfl
  | prepares =>
      cases hcourse with
      | outside ho => cases ho
      | @prepares n _ hn hrest =>
          obtain ⟨hlt, hrest', hnext⟩ := drop_eq_cons hrest
          refine .asks hlt hprep hnext (by rw [hcell]) (hunder n ?_) (hunder' (n + 1) ?_)
          · exact hmade.trans (congrArg some (length_rest hrest hn))
          · exact hmade'.trans (congrArg some (length_rest hrest' hlt))
  | succeeds => exact hrests rfl rfl (hmade'.trans hmade.symm)
  | @fails reply rest e hr =>
      cases hcourse with
      | outside ho => cases ho
      | @asks n _ _ hn hreply hrest hok =>
          have hnone := hc.turns.underWay?_eq_none hc'.turns hothers (hc.turns.alone t _ hmade) hmade'
          refine .fails (a := ⟨t, n + 1⟩) (e := e) (hprep.trans (List.append_nil _)) (by rw [hcell])
            (hunder (n + 1) (hmade.trans (congrArg some (length_rest hrest hn)))) hnone
            ⟨⟨n, hn, rfl, hreplies ▸ hok, ?_⟩, ?_, ?_⟩
          · rw [hreplies, ← hreply, hr]
          · rw [result?_of_caller? hnew]
            rfl
          · rw [hcalls, hbefore]
            exact List.append_nil _
  | settles =>
      cases hcourse with
      | outside ho => cases ho
      | prepares hn hrest hok =>
          obtain rfl := drop_eq_nil hrest hn
          exact .settles (hprep.trans (List.append_nil _)) (by rw [hcell]) (hunder 3 hmade)
            ⟨rfl, hreplies ▸ hok⟩
  | ends => exact hrests rfl rfl (hmade'.trans hmade.symm)

/-- **Every move advances** the attempt that is under way, or leaves it alone. -/
theorem Conducted.exists_advances (hc : h.Conducted issues) (hc' : (h.move m).Conducted issues)
    (hs : h.Sound) : h.Advances (repliesOf issues) (h.move m) := by
  have hprep := hs.preparations_move m
  cases hc.treats hs m with
  | comes _ hcell ht he =>
      rw [he] at hprep
      refine .rests (hprep.trans (List.append_nil _)) ?_ (by rw [hcell])
      rw [Database.underWay?, hcell, Database.underWay?]
      simp only [(Database.apart_of_comes ht _).2]
  | aside hcell hcallers hcalls =>
      refine .rests (hprep.trans ?_) ?_ (by rw [hcell])
      · rw [List.filter_eq_nil_iff.mpr fun a ha => ?_, List.append_nil]
        rw [hcallers, hcalls a ha]
        exact Bool.false_ne_true
      · rw [Database.underWay?, hcell, Database.underWay?]
        simp only [Database.made?, hcallers]
  | turn hx hd hg => exact hc.advances_of_grants hc' hs hx hd hg

/-! ### All attempts -/

/-- A failed attempt stays so, and its caller makes no more calls. -/
theorem Failed.move (hf : h.Failed a replies e) (m : Move) : (h.move m).Failed a replies e := by
  obtain ⟨x, hx, hend⟩ := result?_eq_some_iff.mp hf.result
  obtain ⟨hx', hcalls⟩ := finished_play hx hend [m]
  exact ⟨hf.stopped, result?_eq_some_iff.mpr ⟨x, hx', hend⟩, hcalls.trans hf.calls⟩

/-- **The attempts so far**: those that have failed, and the one that is under way or complete. -/
structure Tries (h : History) (replies : TaskId → List Reply) (failed : List Attempt)
    (last : Option Attempt) : Prop where
  /-- The prepare calls are theirs, one attempt after the other. -/
  calls : h.preparations = (failed ++ last.toList).flatMap Attempt.calls
  /-- No caller makes two. -/
  callers : ((failed ++ last.toList).map Attempt.task).Nodup
  /-- All but the last have failed. -/
  stopped : ∀ a ∈ failed, ∃ e, h.Failed a (replies a.task) e
  /-- The last is the one that is under way, -/
  underWay : h.db.transaction.prepared = false → last = h.db.underWay?
  /-- or it is complete. -/
  complete : h.db.transaction.prepared → ∃ a, last = some a ∧ a.Complete (replies a.task)

/-- Who is not over has no failed attempt. -/
theorem Tries.not_mem {replies : TaskId → List Reply} (ht : h.Tries replies failed last)
    (hr : h.result? t = none) : t ∉ failed.map Attempt.task := by
  intro hmem
  obtain ⟨a, ha, rfl⟩ := List.mem_map.mp hmem
  obtain ⟨e, hf⟩ := ht.stopped a ha
  cases hr.symm.trans hf.result

/-- **Every move leaves attempts of this kind.** -/
theorem Tries.move {replies : TaskId → List Reply} (ht : h.Tries replies failed last)
    (hi : h.db.InTurn) (ha : h.Advances replies (h.move m)) :
    ∃ failed last, (h.move m).Tries replies failed last := by
  have hstopped : ∀ a ∈ failed, ∃ e, (h.move m).Failed a (replies a.task) e := fun a hmem => by
    obtain ⟨e, hf⟩ := ht.stopped a hmem
    exact ⟨e, hf.move m⟩
  have hcalls := ht.calls
  have hcallers := ht.callers
  cases ha with
  | rests hp hu hq =>
      refine ⟨failed, last, hp.trans hcalls, hcallers, hstopped, fun hn => ?_, fun hy => ?_⟩
      · rw [hu]
        exact ht.underWay (hq ▸ hn)
      · exact ht.complete (hq ▸ hy)
  | @begins t hp hq hq' hu hu' hres =>
      obtain rfl := (ht.underWay hq).trans hu
      rw [Option.toList_none, List.append_nil] at hcalls hcallers
      refine ⟨failed, some ⟨t, 0⟩, ?_, ?_, hstopped, fun _ => hu'.symm, fun hy => ?_⟩
      · rw [hp, hcalls, List.flatMap_append]
        exact (List.append_nil _).symm
      · -- who has failed is over, and who begins is not
        rw [List.map_append, List.nodup_append]
        refine ⟨hcallers, by simp, fun i hmem j hj => ?_⟩
        rintro rfl
        obtain rfl : i = t := by simpa using hj
        exact ht.not_mem hres hmem
      · rw [hq'] at hy
        cases hy
  | @asks t n call _ hp hnext hq hu hu' =>
      obtain rfl := (ht.underWay (hi.prepared_eq hu)).trans hu
      refine ⟨failed, some ⟨t, n + 1⟩, ?_, ?_, hstopped, fun _ => hu'.symm, fun hy => ?_⟩
      · rw [hp, hcalls]
        simp [Attempt.calls, hnext]
      · rw [List.map_append] at hcallers ⊢
        exact hcallers
      · rw [hq, hi.prepared_eq hu] at hy
        cases hy
  | @fails a e hp hq hu hu' hf =>
      obtain rfl := (ht.underWay (hi.prepared_eq hu)).trans hu
      refine ⟨failed ++ [a], none, ?_, ?_, fun b hmem => ?_, fun _ => hu'.symm, fun hy => ?_⟩
      · rw [hp, hcalls]
        simp
      · rw [Option.toList_none, List.append_nil]
        exact hcallers
      · rcases List.mem_append.mp hmem with hmem | hmem
        · exact hstopped b hmem
        · obtain rfl := List.mem_singleton.mp hmem
          exact ⟨e, hf⟩
      · rw [hq, hi.prepared_eq hu] at hy
        cases hy
  | @settles a hp hq hu hcomplete =>
      obtain rfl := (ht.underWay (hi.prepared_eq hu)).trans hu
      refine ⟨failed, some a, hp.trans hcalls, hcallers, hstopped, fun hn => ?_,
        fun _ => ⟨a, rfl, hcomplete⟩⟩
      rw [hq] at hn
      cases hn

/-- **Every history goes through attempts**: some that have failed, and a last one. -/
theorem exists_tries (interval : Nat) (timed : Bool) (hi : issued moves <+: issues) :
    ∃ failed last, (history interval timed moves).Tries (repliesOf issues) failed last := by
  induction moves using List.reverseRecOn with
  | nil =>
      have hnone : (history interval timed []).preparations = [] := by
        rw [preparations, trace, show (history interval timed []).events = _ from
          events_opening interval timed]
        rfl
      exact ⟨[], none, hnone, List.nodup_nil, fun _ ha => absurd ha List.not_mem_nil,
        fun _ => rfl, fun hp => absurd hp Bool.false_ne_true⟩
  | append_singleton moves m ih =>
      have hc' := conducted_history interval timed hi
      have hi : issued moves <+: issues := by
        rw [issued_concat] at hi
        exact (List.prefix_append _ _).trans hi
      have hc := conducted_history interval timed hi
      obtain ⟨failed, last, ht⟩ := ih hi
      rw [history_concat] at hc' ⊢
      exact ht.move hc.turns (hc.exists_advances hc' (sound_history interval timed moves))

/-! ### What is prepared for good -/

/-- **All is prepared, or will be** as soon as the caller of the attempt under way takes its turn. -/
def Settling (h : History) (replies : TaskId → List Reply) : Prop :=
  h.db.transaction.prepared ∨ ∃ a, h.db.underWay? = some a ∧ a.Complete (replies a.task)

/-- **From then on nothing is prepared any more.** -/
theorem Settling.move {replies : TaskId → List Reply} (hset : h.Settling replies)
    (hi : h.db.InTurn) (ha : h.Advances replies (h.move m)) :
    (h.move m).Settling replies ∧ (h.move m).preparations = h.preparations := by
  -- an attempt under way is the complete one
  have hcomplete : ∀ a, h.db.underWay? = some a → a.Complete (replies a.task) := by
    intro a hu
    rcases hset with hp | ⟨b, hb, hcomplete⟩
    · cases (hi.prepared_eq hu).symm.trans hp
    · rw [← Option.some.inj (hb.symm.trans hu)]
      exact hcomplete
  cases ha with
  | rests hp hu hq =>
      refine ⟨?_, hp⟩
      rw [Settling, hu, hq]
      exact hset
  | begins hp hq _ hu =>
      rcases hset with hp | ⟨b, hb, -⟩
      · cases hq.symm.trans hp
      · cases hu.symm.trans hb
  | asks hlt _ _ _ hu => exact absurd (hcomplete _ hu).1 (Nat.ne_of_lt hlt)
  | fails _ _ hu _ hf =>
      obtain ⟨n, -, hmade, -, herr⟩ := hf.stopped
      obtain ⟨hall, hok⟩ := hcomplete _ hu
      obtain ⟨response, hr⟩ := hok n (by omega)
      cases hr.symm.trans herr
  | settles hp hq => exact ⟨.inl hq, hp⟩

/-- **A complete attempt is the last one.** -/
theorem Settling.preparations_append {later : List Move}
    (hset : (history interval timed moves).Settling (repliesOf issues))
    (hi : issued (moves ++ later) <+: issues) :
    (history interval timed (moves ++ later)).Settling (repliesOf issues) ∧
      (history interval timed (moves ++ later)).preparations =
        (history interval timed moves).preparations := by
  induction later using List.reverseRecOn with
  | nil =>
      rw [List.append_nil]
      exact ⟨hset, rfl⟩
  | append_singleton later m ih =>
      rw [← List.append_assoc] at hi ⊢
      have hc' := conducted_history interval timed hi
      rw [issued_concat] at hi
      have hi := (List.prefix_append _ _).trans hi
      have hc := conducted_history interval timed hi
      obtain ⟨hsettling, hsame⟩ := ih hi
      rw [history_concat] at hc' ⊢
      have hadvances := hc.exists_advances hc' (sound_history interval timed _)
      obtain ⟨hsettling', hp⟩ := hsettling.move hc.turns hadvances
      exact ⟨hsettling', hp.trans hsame⟩

/-! ### What is seen of attempts and callers -/

/-- **The attempts that are seen in a history** where the engine has these replies. -/
structure Attempted (h : History) (replies : TaskId → List Reply) (failed : List Attempt)
    (last : Option Attempt) : Prop extends h.Tries replies failed last where
  /-- The last one is under way or complete. -/
  latest : ∀ a, last = some a → h.UnderWay a (replies a.task) ∨ a.Complete (replies a.task)
  /-- Who has run a statement has done so after a complete attempt. -/
  whole : ∀ t, (h.db.caller? t).isSome → ∀ verb : TransactionVerb, verb.call ∈ h.callsOf t →
    ∃ a, last = some a ∧ a.Complete (replies a.task)
  /-- After a complete attempt nothing is ever prepared again. -/
  final : ∀ a, last = some a → a.Complete (replies a.task) → ∀ later,
    (h.play later).preparations = h.preparations
  /-- The turn is never lost: if a caller waits for it, one that waits or makes the last attempt can
  go on, unless the engine holds back the reply to the last prepare call. -/
  handed : ∀ t, h.Queues t →
    (∃ u, (h.Queues u ∨ ∃ a, last = some a ∧ a.task = u) ∧ h.db.poll? u ≠ none) ∨
      ∃ a n, last = some a ∧ a.made = n + 1 ∧ ¬ h.db.isOpen (replyAt (replies a.task) n).hold

/-- **How a caller is served.** -/
structure Served (h : History) (replies : TaskId → List Reply) (t : TaskId)
    (verb : TransactionVerb) : Prop where
  /-- It makes an attempt or none, runs its statement once or, if it was refused or has failed, not at
  all. -/
  fares : h.Fares t verb (replies t)
  /-- When all is quiet and no reply is held back, it is over if the scope that it came to was
  started. -/
  answered : h.db.Quiet → (∀ u, (h.db.caller? u).isSome → ∀ r ∈ replies u, h.db.isOpen r.hold) →
    ∀ s, .approached t s ∈ h.events → h.db.scheduler.isStarted s → (h.result? t).isSome

/-- **Every caller fares in one of these ways.** -/
theorem Conducted.fares (hc : h.Conducted issues) (hx : h.db.caller? t = some x)
    (ho : x.operation = .transact verb target) : h.Fares t verb (repliesOf issues t) := by
  obtain ⟨verb', target', replies, ho', hissue, hcourse⟩ := hc.callers t x hx
  obtain ⟨rfl, rfl⟩ : verb = verb' ∧ target = target' := by simpa [ho] using ho'
  rw [repliesOf_eq hissue]
  have hresult := result?_of_caller? hx
  obtain ⟨o, left, stage⟩ := x
  generalize hcalls : h.callsOf t = calls at hcourse
  cases hcourse with
  | outside hout =>
      refine .waits (hresult.trans ?_) hcalls
      cases stage <;> first | rfl | cases hout
  | refused he => exact .refused he hresult hcalls
  | queued => exact .waits hresult hcalls
  | prepares hn _ hok => exact .prepares ⟨hn, hok.mono (Nat.sub_le _ _), hresult, hcalls⟩
  | asks hn _ _ hok => exact .prepares ⟨hn, hok, hresult, hcalls⟩
  | fails hn hok hr => exact .fails ⟨⟨_, hn, rfl, hok, hr⟩, hresult, hcalls⟩
  | executes hn _ hok => exact .executes hn hok hresult hcalls
  | ends hn hok => exact .ends hn hok hresult hcalls

/-- **An attempt that is under way** is seen as one. -/
theorem Conducted.underWay (hc : h.Conducted issues) (hm : h.db.made? t = some n) :
    h.UnderWay ⟨t, n⟩ (repliesOf issues t) := by
  obtain ⟨x, hx, hmade⟩ := Option.bind_eq_some_iff.mp hm
  obtain ⟨verb, target, replies, ho, hissue, hcourse⟩ := hc.callers t x hx
  rw [repliesOf_eq hissue]
  have hresult := result?_of_caller? hx
  obtain ⟨o, left, stage⟩ := x
  generalize hcalls : h.callsOf t = calls at hcourse
  cases hcourse with
  | outside hout =>
      rw [(Stage.apart (.inl hout)).2] at hmade
      cases hmade
  | prepares hn hrest hok =>
      obtain rfl : _ = n := (length_rest hrest hn).symm.trans (Option.some.inj hmade)
      exact ⟨hn, hok.mono (Nat.sub_le _ _), hresult, hcalls⟩
  | asks hn _ hrest hok =>
      obtain rfl : _ = n := (length_rest hrest hn).symm.trans (Option.some.inj hmade)
      exact ⟨hn, hok, hresult, hcalls⟩
  | _ => cases hmade

/-- A caller that waits for the reply to a prepare call waits for that to its last one. -/
theorem Conducted.eq_replyAt {left : List Reply} {reply : Reply} {o : Operation}
    {rest : List TransactionVerb} (hc : h.Conducted issues)
    (hx : h.db.caller? t = some ⟨o, left, .replying reply (.part verb rest)⟩) :
    ∃ n, h.db.made? t = some (n + 1) ∧ reply = replyAt (repliesOf issues t) n := by
  obtain ⟨verb', target, replies, -, hissue, hcourse⟩ := hc.callers t _ hx
  rw [repliesOf_eq hissue]
  generalize h.callsOf t = calls at hcourse
  cases hcourse with
  | outside ho => cases ho
  | asks hn hreply hrest =>
      exact ⟨_, (Database.made?_of_caller? hx).trans (congrArg some (length_rest hrest hn)), hreply⟩

/-- **Who has the turn can go on**, unless the engine holds back the reply to its last prepare
call. -/
theorem Conducted.handed (hc : h.Conducted issues) (hq : h.Queues t)
    (hn : h.db.transaction.prepared = false) :
    ∃ u, (h.Queues u ∧ h.db.poll? u ≠ none) ∨ ∃ n, h.db.underWay? = some ⟨u, n⟩ ∧
      (h.db.poll? u ≠ none ∨
        ∃ k, n = k + 1 ∧ ¬ h.db.isOpen (replyAt (repliesOf issues u) k).hold) := by
  obtain ⟨x, v, hx, hstage⟩ := hq
  have hline : t ∈ h.db.transaction.line := by
    rw [hc.turns.lined_iff hn, Database.lined_of_caller? hx, hstage]
    rfl
  -- the line is not empty, so someone has the turn
  obtain ⟨u, hu⟩ : ∃ u, h.db.transaction.holder = some u := by
    refine Option.ne_none_iff_exists'.mp fun hnone => ?_
    rw [TransactionCell.line, hnone, hc.turns.idle hnone] at hline
    cases hline
  refine ⟨u, ?_⟩
  have hlined : h.db.lined u := by
    rw [← hc.turns.lined_iff hn, Database.line_of_holder hu]
    exact List.mem_cons_self
  obtain ⟨⟨o, left, stage⟩, hcaller, hl⟩ := (Option.any_eq_true _ _).mp hlined
  have htask := (Database.caller?_eq_some_iff.mp hcaller).1
  have hunder : ∀ n, h.db.made? u = some n → h.db.underWay? = some ⟨u, n⟩ :=
    fun n hm => hc.turns.underWay?_eq_some.mpr hm
  cases stage with
  | queued verb =>
      refine .inl ⟨⟨_, verb, hcaller, rfl⟩, ?_⟩
      simp [Database.poll?, htask, Database.pollStage?, hn, hu]
  | preparing verb rest =>
      refine .inr ⟨_, hunder _ (Database.made?_of_caller? hcaller), .inl ?_⟩
      cases rest <;> simp [Database.poll?, htask, Database.pollStage?]
  | replying reply purpose =>
      cases purpose with
      | part verb rest =>
          obtain ⟨n, hmade, hreply⟩ := hc.eq_replyAt hcaller
          refine .inr ⟨n + 1, hunder _ hmade, ?_⟩
          by_cases hopen : h.db.isOpen reply.hold
          · exact .inl (Database.poll?_of_isOpen htask hopen)
          · exact .inr ⟨n, rfl, hreply ▸ hopen⟩
      | _ => cases hl
  | _ => cases hl

/-- An attempt that is under way is that of a caller. -/
theorem isSome_caller?_of_underWay? (hc : h.Conducted issues) (hu : h.db.underWay? = some a) :
    (h.db.caller? a.task).isSome := by
  obtain ⟨x, hx, -⟩ := Option.bind_eq_some_iff.mp (hc.turns.underWay?_eq_some.mp hu)
  rw [hx]
  rfl

/-- Operations that are issued later do not change the replies to a caller. -/
theorem Conducted.repliesOf_append (hc : h.Conducted issues) (hx : (h.db.caller? t).isSome)
    (more : List (Operation × List Reply)) :
    repliesOf (issues ++ more) t = repliesOf issues t := by
  obtain ⟨x, hx⟩ := Option.isSome_iff_exists.mp hx
  obtain ⟨verb, target, replies, -, hissue, -⟩ := hc.callers t x hx
  rw [repliesOf, List.getElem?_append_left (List.getElem?_eq_some_iff.mp hissue).1, repliesOf]

/-- **Attempts are seen as they are.** -/
theorem attempted_history (interval : Nat) (timed : Bool) (moves : List Move) :
    ∃ failed last,
      (history interval timed moves).Attempted (repliesOf (issued moves)) failed last := by
  have hc := conducted_history interval timed (List.prefix_refl (issued moves))
  obtain ⟨failed, last, ht⟩ := exists_tries interval timed (List.prefix_refl (issued moves))
  refine ⟨failed, last, ht, fun a ha => ?_, fun t hx verb hv => ?_, fun a ha hcomplete later => ?_,
    fun t hq => ?_⟩
  · cases hp : (history interval timed moves).db.transaction.prepared with
    | false => exact .inl (hc.underWay (hc.turns.underWay?_eq_some.mp ((ht.underWay hp).symm.trans ha)))
    | true =>
        obtain ⟨b, hb, hcomplete⟩ := ht.complete hp
        obtain rfl := Option.some.inj (hb.symm.trans ha)
        exact .inr hcomplete
  · obtain ⟨x, hx⟩ := Option.isSome_iff_exists.mp hx
    exact ht.complete (hc.whole t x hx verb hv)
  · have hissued : issued (moves ++ later) = issued moves ++ issued later := List.filterMap_append
    rw [history_play]
    refine (Settling.preparations_append ?_ (List.prefix_refl _)).2
    cases hp : (history interval timed moves).db.transaction.prepared with
    | false =>
        have hu := (ht.underWay hp).symm.trans ha
        refine .inr ⟨a, hu, ?_⟩
        rw [hissued, hc.repliesOf_append (isSome_caller?_of_underWay? hc hu)]
        exact hcomplete
    | true => exact .inl hp
  · cases hp : (history interval timed moves).db.transaction.prepared with
    | false =>
        rw [ht.underWay hp]
        obtain ⟨u, hgo | ⟨n, hu, hgo | ⟨k, rfl, hheld⟩⟩⟩ := hc.handed hq hp
        · exact .inl ⟨u, .inl hgo.1, hgo.2⟩
        · exact .inl ⟨u, .inr ⟨_, hu, rfl⟩, hgo⟩
        · exact .inr ⟨_, k, hu, rfl, hheld⟩
    | true =>
        obtain ⟨⟨o, left, stage⟩, verb, hx, rfl⟩ := hq
        refine .inl ⟨t, .inl ⟨_, verb, hx, rfl⟩, ?_⟩
        simp [Database.poll?, (Database.caller?_eq_some_iff.mp hx).1, Database.pollStage?, hp]

/-- A reply is not held back where none is. -/
theorem isOpen_replyAt {db : Database} (ho : ∀ r ∈ replies, db.isOpen r.hold) (n : Nat) :
    db.isOpen (replyAt replies n).hold := by
  rw [replyAt]
  cases hr : replies[n]? with
  | none => rfl
  | some r => exact ho r (List.mem_of_getElem? hr)

/-- **No one is left at work** when all is quiet and no reply is held back. -/
theorem Conducted.not_transacting (hc : h.Conducted issues) (hq : h.db.Quiet)
    (ho : ∀ u, (h.db.caller? u).isSome → ∀ r ∈ repliesOf issues u, h.db.isOpen r.hold)
    (hx : h.db.caller? t = some x) : x.stage.transacting = false := by
  have htask := (Database.caller?_eq_some_iff.mp hx).1
  obtain ⟨verb', target', replies, -, hissue, hcourse⟩ := hc.callers t x hx
  have hopen := isOpen_replyAt (repliesOf_eq hissue ▸ ho t (by rw [hx]; rfl))
  have hgo := hq t
  obtain ⟨o, left, stage⟩ := x
  generalize h.callsOf t = calls at hcourse
  cases hcourse with
  | outside hout => cases stage <;> first | rfl | cases hout
  | queued =>
      cases hp : h.db.transaction.prepared with
      | false =>
          obtain ⟨u, ⟨-, hu⟩ | ⟨n, hu, hgo' | ⟨k, -, hheld⟩⟩⟩ := hc.handed ⟨_, _, hx, rfl⟩ hp
          · exact absurd (hq u) hu
          · exact absurd (hq u) hgo'
          · have hcaller := isSome_caller?_of_underWay? hc hu
            exact absurd (isOpen_replyAt (ho u hcaller) k) hheld
      | true => simp [Database.poll?, htask, Database.pollStage?, hp] at hgo
  | @prepares _ rest => cases rest <;> simp [Database.poll?, htask, Database.pollStage?] at hgo
  | asks _ hreply =>
      subst hreply
      exact absurd hgo (Database.poll?_of_isOpen htask (hopen _))
  | executes _ hreply =>
      subst hreply
      exact absurd hgo (Database.poll?_of_isOpen htask (hopen _))
  | _ => rfl

/-- The task of an operation that was issued. -/
theorem exists_caller (interval : Nat) (timed : Bool)
    (hi : (issued moves)[t]? = some (.transact verb target, replies)) :
    ∃ x, (history interval timed moves).db.caller? t = some x ∧
      x.operation = .transact verb target := by
  have hop := congrArg (·[t]?) (operations_history interval timed moves)
  simp only [List.getElem?_map, hi, Option.map_some, Option.map_eq_some_iff] at hop
  obtain ⟨x, hx, ho⟩ := hop
  exact ⟨x, Database.caller?_eq_some_iff.mpr ⟨hx, verb, target, ho⟩, ho⟩

/-- **A caller that came to its scope** was rejected or admitted there. -/
theorem admits_of_approached {s : ScopeId}
    (hi : (issued moves)[t]? = some (.transact verb target, replies))
    (ha : .approached t s ∈ (history interval timed moves).events) :
    (history interval timed moves).Rejected t s ∨
      ∃ left, (history interval timed moves).Admits t (.transact verb) s left := by
  obtain ⟨before, m, later, rfl, he⟩ := exists_move_of_approached ha
  have hs := sound_history interval timed before
  rw [history_mid]
  by_cases hend : (history interval timed before).db.scheduler.isEnded s
  · exact .inl (hs.rejected he hend later)
  · obtain ⟨c, hh⟩ := (history interval timed before).db.exists_happens m
    obtain ⟨-, x, work, hx, -⟩ := hh.approached he
    have hop := congrArg (·[t]?) (operations_history interval timed before)
    simp only [List.getElem?_map, hx, Option.map_some] at hop
    obtain ⟨a, hissued, ho⟩ := Option.map_eq_some_iff.mp hop.symm
    have hsame : a = (.transact verb target, replies) := by
      rw [issued, List.filterMap_append, ← issued, List.getElem?_append_left
        (List.getElem?_eq_some_iff.mp hissued).1, hissued] at hi
      exact Option.some.inj hi
    have hgoal : x.operation.goal? = some (.transact verb, target) := by
      rw [← ho, hsame]
      rfl
    exact .inr ⟨_, hs.admitted hx hgoal he hend later⟩

/-- **A caller that was let in** is over when all is quiet and no reply is held back. -/
theorem isSome_result? {s : ScopeId}
    (hi : (issued moves)[t]? = some (.transact verb target, replies))
    (hq : (history interval timed moves).db.Quiet)
    (ho : ∀ u, ((history interval timed moves).db.caller? u).isSome →
      ∀ r ∈ repliesOf (issued moves) u, (history interval timed moves).db.isOpen r.hold)
    (ha : .approached t s ∈ (history interval timed moves).events)
    (hs : (history interval timed moves).db.scheduler.isStarted s) :
    ((history interval timed moves).result? t).isSome := by
  have hc := conducted_history interval timed (List.prefix_refl (issued moves))
  rcases admits_of_approached hi ha with hrejected | ⟨left, hadmits⟩
  · rw [hrejected.1]
    rfl
  · cases hadmits with
    | waits hx => exact absurd (hq t) (Database.poll?_of_isStarted hx hs)
    | asked _ hcall => cases hcall
    | answered _ hcall => cases hcall
    | transacts _ hverb hx hstage =>
        obtain ⟨y, hy, -⟩ := exists_caller interval timed hi
        obtain rfl := Option.some.inj (hx.symm.trans (Database.caller?_eq_some_iff.mp hy).1)
        rcases hstage with hwork | ⟨r, hend⟩
        · cases (hc.not_transacting hq ho hy).symm.trans hwork
        · rw [result?_eq_some_iff.mpr ⟨_, hx, hend⟩]
          rfl

/-- **The transaction statements are prepared as one unit.** Whatever the engine answers and however
callers and tasks take turns: the prepare calls are those of one attempt after the other, each of which
asks for the statements in order and stops at its first failure. The failure goes to its caller alone,
which runs nothing; the turn is handed on to those that wait. After a complete attempt nothing is ever
prepared again, and before it no statement is run. Every caller that passes the gate and its
preparation runs its own statement, once. -/
theorem transactions_prepared_once (interval : Nat) (timed : Bool) (moves : List Move) :
    (∃ failed last,
        (history interval timed moves).Attempted (repliesOf (issued moves)) failed last) ∧
      ∀ t verb target replies, (issued moves)[t]? = some (.transact verb target, replies) →
        (history interval timed moves).Served (repliesOf (issued moves)) t verb := by
  refine ⟨attempted_history interval timed moves, fun t verb target replies hi => ?_⟩
  have hc := conducted_history interval timed (List.prefix_refl (issued moves))
  obtain ⟨x, hx, ho⟩ := exists_caller interval timed hi
  exact ⟨hc.fares hx ho, fun hq hopen s ha hs => isSome_result? hi hq hopen ha hs⟩

/-- A run of two callers: the first fails with its second statement, and the other one, which waits
meanwhile, makes an attempt of its own. -/
def retrying : List Move :=
  [.act (.issue (.transact .begin none) [{}, { result := .error (.connection "boom") }]),
    .act (.issue (.transact .commit none) []), .poll 0, .poll 1, .poll 0, .poll 1, .poll 0, .poll 1,
    .poll 0, .poll 0, .poll 0, .poll 0, .poll 1, .poll 1, .poll 1, .poll 1, .poll 1, .poll 1,
    .poll 1, .poll 1, .poll 1]

/-- The first caller gets the failure and the second one runs its statement. -/
theorem transactions_prepared_once_retrying :
    (history 0 false retrying).Served (repliesOf (issued retrying)) 1 .commit ∧
      (history 0 false retrying).preparations =
        [(0, .prepare "BEGIN"), (0, .prepare "COMMIT"), (1, .prepare "BEGIN"),
          (1, .prepare "COMMIT"), (1, .prepare "ROLLBACK")] ∧
      (history 0 false retrying).callsOf 1 = preparing 3 ++ [TransactionVerb.commit.call] :=
  ⟨(transactions_prepared_once 0 false retrying).2 1 .commit none [] rfl, by decide +kernel,
    by decide +kernel⟩

end History

end ScopedSql
