import ScopedSql.Proofs.Database.Serial
import ScopedSql.Proofs.Scope.Handover
import ScopedSql.Proofs.Scope.Pending

/-!
# Clients that start scopes themselves

Nothing keeps clients from starting a scope of the chain before its turn. The chain survives that: it
tries to start each scope once, in the move in which the scope before it is over, and where a client
was faster, that attempt is refused and a notice tells of it, but nothing is lost. `Survives` says what
is true after every run, and `HandsOver` what is true of every move; `chain_survives` proves both.
-/

namespace ScopedSql

/-- **A move was made in a run**, after moves of which something holds. -/
def Made (moves : List Move) (m : Move) (p : List Move → Prop) : Prop :=
  ∃ before later, moves = before ++ m :: later ∧ p before

/-- A move was made in a longer run, or is the last one of it. -/
theorem made_concat {moves : List Move} {m m' : Move} {p : List Move → Prop} :
    Made (moves ++ [m']) m p ↔ Made moves m p ∨ m' = m ∧ p moves := by
  constructor
  · rintro ⟨before, later, heq, hp⟩
    rcases List.eq_nil_or_concat later with rfl | ⟨later, m'', rfl⟩
    · obtain ⟨rfl, hm⟩ := List.append_inj' heq rfl
      exact .inr ⟨by simpa using hm, hp⟩
    · rw [List.concat_eq_append, ← List.cons_append, ← List.append_assoc] at heq
      exact .inl ⟨before, later, (List.append_inj' heq rfl).1, hp⟩
  · rintro (⟨before, later, rfl, hp⟩ | ⟨rfl, hp⟩)
    · exact ⟨before, later ++ [m'], by simp, hp⟩
    · exact ⟨moves, [], rfl, hp⟩

/-- In the empty run no move was made. -/
theorem not_made_nil {m : Move} {p : List Move → Prop} : ¬ Made [] m p := by
  rintro ⟨_ | _, _, ⟨⟩, -⟩

namespace History

variable {h : History} {m : Move} {moves : List Move} {interval : Nat} {timed : Bool}
  {p r u : ScopeId}

/-- What happened to scopes. -/
def scopeEvents (h : History) : List ScopeEvent := h.events.filterMap Event.scope?

/-- What happens to scopes in a move. -/
def scopeNews (h : History) (m : Move) : List ScopeEvent := (h.db.move m).2.filterMap Event.scope?

/-- What happened to scopes grows by the news of each move. -/
theorem scopeEvents_move : (h.move m).scopeEvents = h.scopeEvents ++ h.scopeNews m :=
  List.filterMap_append

/-- **A client started a scope of the chain**, and succeeded. -/
def StartedByClient (interval : Nat) (timed : Bool) (moves : List Move) (r : ScopeId) : Prop :=
  Made moves (.act (.start r)) fun before => r ∈ (history interval timed before).chain ∧
    ((history interval timed before).db.act (.start r)).2.1 = .nothing

/-- **A client ended a user scope.** -/
def EndedByClient (interval : Nat) (timed : Bool) (moves : List Move) (u : ScopeId) : Prop :=
  Made moves (.act (.finish u)) fun before => u ∈ (history interval timed before).users

/-- **The turn of a scope is due in a move**: the scope before it is over after the move, and was not
before, or the scope itself is new. -/
def DueIn (h : History) (m : Move) (p r : ScopeId) : Prop :=
  (h.move m).db.scheduler.isOver p ∧ (¬ h.db.scheduler.isOver p ∨ r ∉ h.chain)

instance : Decidable (h.DueIn m p r) := inferInstanceAs (Decidable (_ ∧ _))

/-! ### One move -/

/-- What holds along a chain holds of neighbours. -/
theorem rel_of_isChain {R : ScopeId → ScopeId → Prop} {l : List ScopeId} (h : l.IsChain R)
    (hpr : [p, r] <:+: l) : R p r :=
  List.isChain_pair.mp ( List.IsChain.infix h hpr)

/-- A start of a known scope succeeds unless the scope was started before. -/
theorem act_start_eq_nothing (hk : h.db.scheduler.Known r) :
    (h.db.act (.start r)).2.1 = .nothing ↔ ¬ h.db.scheduler.isStarted r := by
  obtain ⟨x, hx⟩ := Scheduler.known_iff.mp hk
  have hs : h.db.scheduler.isStarted r = x.started := by simp [Scheduler.isStarted, hx]
  rw [Database.act, Scheduler.start, hx, hs]
  cases hx : x.started <;> simp [hx]

/-- What a move does to the chain: the scopes that are new were not there before, and turns are handed
over. -/
structure Handed (h : History) (m : Move) (c : Scheduler.Call) : Prop where
  /-- The move makes the call. -/
  happens : h.db.Happens m c (h.move m).db (h.db.move m).2
  /-- The call is served. -/
  served : Scheduler.Served h.links h.db.scheduler c (h.move m).db.scheduler
  /-- The chain grows by the link of the call. -/
  links : (h.move m).links = h.links ++ (c.link? h.db.scheduler).toList
  /-- Turns are handed over. -/
  handover : ∀ {p r}, [p, r] <:+: (h.move m).chain →
    Scheduler.Handover c h.db.scheduler (h.move m).db.scheduler (h.scopeNews m) p r
  /-- Nothing is heard of scopes without a scope before them. -/
  silent : ∀ {r}, r ∉ (h.move m).chain.tail → Silent r (h.scopeNews m)

/-- **Every move hands turns over.** -/
theorem Sound.exists_handed (hs : h.Sound) (m : Move) : ∃ c, h.Handed m c := by
  obtain ⟨c, hh, hv, hl⟩ := hs.exists_served m
  have hnews : h.scopeNews m = (h.db.scheduler.serve c).2 := hh.scope_events
  have hsched : (h.move m).db.scheduler = (h.db.scheduler.serve c).1 := hh.scheduler
  refine ⟨c, hh, hv, hl, fun {p r} hpr => ?_, fun {r} hr => ?_⟩
  · have hchain := hs.chain.serve_handover c
    rw [← hl, ← hsched, ← hnews] at hchain
    exact rel_of_isChain hchain hpr
  · rw [hnews]
    rw [History.chain, hl] at hr
    exact hs.chain.serve_silent c hr

/-- The move makes the start of a scope exactly if a client does. -/
theorem Handed.start_iff {c : Scheduler.Call} (hd : h.Handed m c) :
    c = .start r ↔ m = .act (.start r) := by
  constructor
  · rintro rfl
    exact hd.happens.eq_start
  · rintro rfl
    exact hd.happens.call_eq

/-- The move makes the end of a scope exactly if a client does. -/
theorem Handed.finish_iff {c : Scheduler.Call} (hd : h.Handed m c) :
    c = .finish r ↔ m = .act (.finish r) := by
  constructor
  · rintro rfl
    exact hd.happens.eq_finish
  · rintro rfl
    exact hd.happens.call_eq

/-- Only a request makes the chain longer, by two scopes that are new. -/
theorem Handed.new {c : Scheduler.Call} (hd : h.Handed m c) (hr : r ∈ (h.move m).chain)
    (hn : r ∉ h.chain) : c = .newScope ∧ (h.move m).links = h.links ++ [h.db.scheduler.newLink] ∧
      ¬ h.db.scheduler.Known r := by
  have hl := hd.links
  by_cases hc : c = .newScope ∧ h.db.scheduler.closed = false
  · obtain ⟨rfl, hopen⟩ := hc
    have hlink : Scheduler.Call.newScope.link? h.db.scheduler = some h.db.scheduler.newLink :=
      if_neg (by simp [hopen])
    rw [hlink, Option.toList_some] at hl
    refine ⟨rfl, hl, ?_⟩
    rw [chain, hl, chainOf_append] at hr
    rcases List.mem_append.mp hr with hr | hr
    · exact absurd hr hn
    · obtain rfl | rfl : r = h.db.scheduler.nextId ∨ r = h.db.scheduler.afterNextId := by
        simpa [Scheduler.newLink] using hr
      · exact Scheduler.not_known_nextId
      · exact Scheduler.not_known_afterNextId
  · have hsame : h.links ++ (c.link? h.db.scheduler).toList = h.links := by
      cases c with
      | newScope => exact links_of_closed (by simpa using hc) _
      | _ => exact List.append_nil _
    rw [chain, hl, hsame] at hr
    exact absurd hr hn

/-- A turn is due in a move if it is due in its call. -/
theorem Handed.due_iff {c : Scheduler.Call} (hd : h.Handed m c) (hs : h.Sound)
    (hr : r ∈ (h.move m).chain) :
    Scheduler.Due h.db.scheduler (h.move m).db.scheduler p r ↔ h.DueIn m p r := by
  have hk : h.db.scheduler.Known r ↔ r ∈ h.chain :=
    ⟨fun hk => by_contra fun hn => (hd.new hr hn).2.2 hk, hs.chain.strung.known r⟩
  rw [Scheduler.Due, DueIn, hk]

/-- Neighbours in a longer chain were neighbours before, unless the second one is new. -/
theorem infix_of_mem {l extra : List ScopeId} (hn : (l ++ extra).Nodup)
    (h : [p, r] <:+: l ++ extra) (hr : r ∈ l) : [p, r] <:+: l := by
  obtain ⟨before, later, heq⟩ := h
  rcases List.append_eq_append_iff.mp heq with ⟨more, hl, -⟩ | ⟨more, hl, hextra⟩
  · exact ⟨before, more, hl.symm⟩
  · rcases List.eq_nil_or_concat more with rfl | ⟨more, q, rfl⟩
    · exact ⟨before, [], by simpa using hl⟩
    · -- here the second one would stand behind the chain as well
      have hq : r = q := by
        have hlast := congrArg List.getLast? hl
        simpa using hlast
      refine absurd rfl ((List.nodup_append.mp hn).2.2 r hr r ?_)
      simp [hextra, hq]

/-- Neighbours of a longer chain, the second of which is not new, were neighbours before. -/
theorem Handed.neighbours {c : Scheduler.Call} (hd : h.Handed m c) (hr : r ∈ h.chain)
    (hpr : [p, r] <:+: (h.move m).chain) : [p, r] <:+: h.chain := by
  have hn := hd.served.sound.strung.nodup
  have hchain : (h.move m).chain =
      h.chain ++ (c.link? h.db.scheduler).toList.flatMap fun l => [l.1, l.2] := by
    rw [chain, hd.links, chainOf, List.flatMap_append]
    rfl
  rw [← hd.links, ← chain, hchain] at hn
  rw [hchain] at hpr
  exact infix_of_mem hn hpr hr

/-! ### What every run preserves -/

/-- **The books of a run**: what the chain has tried so far, who was started and who was ended. -/
structure Accounted (interval : Nat) (timed : Bool) (moves : List Move) (h : History) : Prop
    extends h.Sound where
  /-- A scope was tried once if the scope before it is over, and not at all otherwise. -/
  tried : ∀ p r, [p, r] <:+: h.chain →
    attempts r h.scopeEvents = if h.db.scheduler.isOver p then 1 else 0
  /-- No other scope was tried. -/
  untried : ∀ r, r ∉ h.chain.tail → attempts r h.scopeEvents = 0
  /-- A scope was started if the scope before it is over, or by a client. -/
  started : ∀ p r, [p, r] <:+: h.chain → (h.db.scheduler.isStarted r ↔
    h.db.scheduler.isOver p ∨ StartedByClient interval timed moves r)
  /-- Clients have started scopes of the chain. -/
  known : ∀ r, StartedByClient interval timed moves r → r ∈ h.chain
  /-- A user scope was ended by a client or not at all. -/
  ended : ∀ u ∈ h.users, (h.db.scheduler.isEnded u ↔ EndedByClient interval timed moves u)
  /-- Clients have ended user scopes. -/
  mem_users : ∀ u, EndedByClient interval timed moves u → u ∈ h.users

/-- The chain grows by the link of each move. -/
theorem chain_move : (h.move m).chain = h.chain ++ (link? h.db m).toList.flatMap fun l => [l.1, l.2] := by
  rw [chain, move, chainOf, List.flatMap_append]
  rfl

/-- The user scopes grow by those of the link of each move. -/
theorem users_move_eq : (h.move m).users = h.users ++ usersOf (link? h.db m).toList :=
  List.map_append

/-- **The chain tries a scope in the move in which its turn is due**, and once in that move. -/
theorem Handed.attempts_eq {c : Scheduler.Call} (hd : h.Handed m c) (hs : h.Sound)
    (hpr : [p, r] <:+: (h.move m).chain) :
    attempts r (h.scopeNews m) = if h.DueIn m p r then 1 else 0 := by
  classical
  rw [(hd.handover hpr).attempts_eq]
  exact if_congr (hd.due_iff hs (hpr.subset (by simp))) rfl rfl

/-- A scope is started in a move if its turn is due, or by a client. -/
theorem Handed.isStarted_iff {c : Scheduler.Call} (hd : h.Handed m c) (hs : h.Sound)
    (hpr : [p, r] <:+: (h.move m).chain) : (h.move m).db.scheduler.isStarted r ↔
      h.db.scheduler.isStarted r ∨ m = .act (.start r) ∨ h.DueIn m p r := by
  rw [(hd.handover hpr).isStarted_iff, hd.start_iff, hd.due_iff hs (hpr.subset (by simp))]

/-- After a move, too, a scope was tried once if the scope before it is over, and not at all
otherwise. -/
theorem Accounted.tried_move {c : Scheduler.Call} (ha : Accounted interval timed moves h)
    (hd : h.Handed m c) (hpr : [p, r] <:+: (h.move m).chain) :
    attempts r (h.move m).scopeEvents = if (h.move m).db.scheduler.isOver p then 1 else 0 := by
  rw [scopeEvents_move, attempts_append, hd.attempts_eq ha.toSound hpr]
  by_cases hr : r ∈ h.chain
  · rw [ha.tried p r (hd.neighbours hr hpr)]
    by_cases ho : h.db.scheduler.isOver p
    · simp [DueIn, hr, ho, hd.served.evolves.isOver ho]
    · simp [DueIn, hr, ho]
  · rw [ha.untried r (mt List.mem_of_mem_tail hr)]
    simp [DueIn, hr]

/-- After a move, too, no other scope was tried. -/
theorem Accounted.untried_move {c : Scheduler.Call} (ha : Accounted interval timed moves h)
    (hd : h.Handed m c) (hr : r ∉ (h.move m).chain.tail) :
    attempts r (h.move m).scopeEvents = 0 := by
  have hold : r ∉ h.chain.tail := by
    intro hmem
    rw [chain_move] at hr
    exact hr (List.mem_append_left _ hmem)
  rw [scopeEvents_move, attempts_append, ha.untried r hold, (hd.silent hr).attempts_eq]

/-- After a move, too, a scope was started if the scope before it is over, or by a client. -/
theorem Accounted.started_move {c : Scheduler.Call} (ha : Accounted interval timed moves h)
    (hh : h = history interval timed moves) (hd : h.Handed m c)
    (hpr : [p, r] <:+: (h.move m).chain) : (h.move m).db.scheduler.isStarted r ↔
      (h.move m).db.scheduler.isOver p ∨ StartedByClient interval timed (moves ++ [m]) r := by
  rw [hd.isStarted_iff ha.toSound hpr, StartedByClient, made_concat, ← StartedByClient, ← hh]
  by_cases hr : r ∈ h.chain
  · have hk := ha.chain.strung.known r hr
    have hover : h.db.scheduler.isOver p → (h.move m).db.scheduler.isOver p :=
      hd.served.evolves.isOver
    rw [ha.started p r (hd.neighbours hr hpr), act_start_eq_nothing hk,
      ha.started p r (hd.neighbours hr hpr), DueIn]
    simp only [hr, not_true, or_false, true_and]
    tauto
  · obtain ⟨rfl, -, hnk⟩ := hd.new (hpr.subset (by simp)) hr
    have hns : ¬ h.db.scheduler.isStarted r := mt Scheduler.known_of_isStarted hnk
    have hnc : ¬ StartedByClient interval timed moves r := mt (ha.known r) hr
    have hnm : m ≠ .act (.start r) := by
      rw [Ne, ← hd.start_iff]
      simp
    simp [hns, hnc, hnm, hr, DueIn]

/-- After a move, too, a user scope was ended by a client or not at all. -/
theorem Accounted.ended_move {c : Scheduler.Call} (ha : Accounted interval timed moves h)
    (hh : h = history interval timed moves) (hd : h.Handed m c) (hu : u ∈ (h.move m).users) :
    (h.move m).db.scheduler.isEnded u ↔ EndedByClient interval timed (moves ++ [m]) u := by
  rw [EndedByClient, made_concat, ← EndedByClient, ← hh]
  by_cases hus : u ∈ h.users
  · have hk := ha.chain.strung.known u (mem_chainOf_of_mem_usersOf hus)
    have hends : c.Ends h.db.scheduler u ↔ m = .act (.finish u) := by
      rw [← hd.finish_iff]
      refine ⟨ha.toSound.eq_finish_of_ends hus, ?_⟩
      rintro rfl
      rfl
    rw [hd.served.ended u hk, hends, ha.ended u hus]
    simp [hus]
  · have hk := (ha.toSound.move m).chain.strung.known u (mem_chainOf_of_mem_usersOf hu)
    have hnk : ¬ h.db.scheduler.Known u := by
      rcases users_move hd.links with hsame | ⟨-, hlonger⟩
      · rw [hsame] at hu
        exact absurd hu hus
      · rw [hlonger] at hu
        obtain rfl : u = h.db.scheduler.nextId := by simpa [hus] using hu
        exact Scheduler.not_known_nextId
    have hno := hd.served.created u hk hnk
    have hnc : ¬ EndedByClient interval timed moves u := mt (ha.mem_users u) hus
    simp [hno, hnc, hus]

/-- **The books are kept by every move.** -/
theorem Accounted.concat (ha : Accounted interval timed moves (history interval timed moves))
    (m : Move) : Accounted interval timed (moves ++ [m]) (history interval timed (moves ++ [m])) := by
  obtain ⟨c, hd⟩ := ha.toSound.exists_handed m
  have hmove : history interval timed (moves ++ [m]) = (history interval timed moves).move m :=
    play_concat _ _ _
  rw [hmove]
  exact {
    toSound := ha.toSound.move m
    tried := fun p r hpr => ha.tried_move hd hpr
    untried := fun r hr => ha.untried_move hd hr
    started := fun p r hpr => ha.started_move rfl hd hpr
    known := fun r hr => by
      rw [chain_move]
      rcases made_concat.mp hr with hr | ⟨-, hr, -⟩
      · exact List.mem_append_left _ (ha.known r hr)
      · exact List.mem_append_left _ hr
    ended := fun u hu => ha.ended_move rfl hd hu
    mem_users := fun u hu => by
      rw [users_move_eq]
      rcases made_concat.mp hu with hu | ⟨-, hu⟩
      · exact List.mem_append_left _ (ha.mem_users u hu)
      · exact List.mem_append_left _ hu }

/-- **The books of every run are right.** -/
theorem accounted_history (interval : Nat) (timed : Bool) (moves : List Move) :
    Accounted interval timed moves (history interval timed moves) := by
  induction moves using List.reverseRecOn with
  | nil =>
      have hevents : (history interval timed []).scopeEvents = [.started ⟨0⟩] := by
        rw [scopeEvents]
        exact congrArg (List.filterMap Event.scope?) (events_opening interval timed)
      have hnone : ∀ {p r}, ¬ [p, r] <:+: (history interval timed []).chain := fun hpr =>
        absurd (show 2 ≤ 1 from hpr.length_le) (by decide)
      exact {
        toSound := sound_history interval timed []
        tried := fun p r hpr => absurd hpr hnone
        untried := fun r _ => by rw [hevents]; rfl
        started := fun p r hpr => absurd hpr hnone
        known := fun r hr => absurd hr not_made_nil
        ended := fun u hu => absurd hu List.not_mem_nil
        mem_users := fun u hu => absurd hu not_made_nil }
  | append_singleton moves m ih => exact ih.concat m

/-! ### The result -/

/-- **The chain survives a run.** -/
structure Survives (interval : Nat) (timed : Bool) (moves : List Move) (h : History) : Prop where
  /-- Behind a scope that is over the next one was started. -/
  started : ∀ p r, [p, r] <:+: h.chain → h.db.scheduler.isOver p → h.db.scheduler.isStarted r
  /-- The chain has tried to start a scope once if the scope before it is over, and not at all
  otherwise. -/
  tried : ∀ p r, [p, r] <:+: h.chain →
    attempts r h.scopeEvents = if h.db.scheduler.isOver p then 1 else 0
  /-- Pending are the user scopes that are not over, in order of creation. -/
  pending : h.db.scheduler.pending = h.users.filter fun u => !h.db.scheduler.isOver u
  /-- None of them is pending twice. -/
  nodup : h.db.scheduler.pending.Nodup
  /-- Counted are the user scopes that were not ended. -/
  count : h.db.scheduler.pendingCount = (h.users.filter fun u => !h.db.scheduler.isEnded u).length
  /-- Those are the ones that no client has ended. -/
  ended : ∀ u ∈ h.users, h.db.scheduler.isEnded u ↔ EndedByClient interval timed moves u

/-- **A move hands over the turns that are due.** -/
structure HandsOver (interval : Nat) (timed : Bool) (moves : List Move) (h : History) (m : Move) :
    Prop where
  /-- The chain tries to start a scope exactly if its turn is due. -/
  tried : ∀ p r, [p, r] <:+: (h.move m).chain →
    attempts r (h.scopeNews m) = if h.DueIn m p r then 1 else 0
  /-- The attempt is made by the scope before it, and succeeds or is refused at once. -/
  outcome : ∀ p r, [p, r] <:+: (h.move m).chain → h.DueIn m p r →
    [.fired p r.number, .started r] <:+: h.scopeNews m ∨
      [.fired p r.number, .refused r] <:+: h.scopeNews m
  /-- No other scope is tried or refused. -/
  elsewhere : ∀ r, r ∉ (h.move m).chain.tail → Silent r (h.scopeNews m)
  /-- Where the scope itself is new, it is a user scope and the move is the request for it. -/
  requested : ∀ p r, [p, r] <:+: (h.move m).chain → h.DueIn m p r → h.db.scheduler.isOver p →
    m = .act .newScope ∧ r ∈ (h.move m).users ∧ r ∉ h.users
  /-- A notice says that the scope was started twice exactly if a client had started it before. -/
  noticed : ∀ p r, [p, r] <:+: (h.move m).chain →
    ((∃ e ∈ (h.db.move m).2, Session.noticeOf? (h.move m).db e = some (.startedTwice r)) ↔
      h.DueIn m p r ∧ StartedByClient interval timed moves r)

/-- Behind a scope that is over the next one was started. -/
theorem Sound.isStarted_of_isOver (hs : h.Sound) (hpr : [p, r] <:+: h.chain)
    (ho : h.db.scheduler.isOver p) : h.db.scheduler.isStarted r :=
  ((rel_of_isChain hs.chain.strung.linked hpr).passed ho).2

/-- A notice that a scope was started twice comes from an attempt that was refused. -/
theorem Handed.noticed_iff {c : Scheduler.Call} (hd : h.Handed m c) (db : Database) :
    (∃ e ∈ (h.db.move m).2, Session.noticeOf? db e = some (.startedTwice r)) ↔
      .refused r ∈ h.scopeNews m := by
  constructor
  · rintro ⟨e, he, hn⟩
    rcases Session.noticeOf?_startedTwice hn with rfl | rfl
    · exact List.mem_filterMap.mpr ⟨_, he, rfl⟩
    · obtain ⟨count, hcount⟩ := hd.happens.noticed he
      cases hcount
  · intro hr
    obtain ⟨e, he, heq⟩ := List.mem_filterMap.mp hr
    cases e with
    | scope e =>
        obtain rfl : e = .refused r := by simpa [Event.scope?] using heq
        exact ⟨_, he, rfl⟩
    | _ => cases heq

/-- Where the scope itself is new and its turn is due, it is the user scope of a request. -/
theorem Handed.requested {c : Scheduler.Call} (hd : h.Handed m c) (hs : h.Sound)
    (hpr : [p, r] <:+: (h.move m).chain) (ho : (h.move m).db.scheduler.isOver p) (hr : r ∉ h.chain) :
    m = .act .newScope ∧ r ∈ (h.move m).users ∧ r ∉ h.users := by
  obtain ⟨rfl, hl, hnk⟩ := hd.new (hpr.subset (by simp)) hr
  have hafter : h.db.scheduler.afterNextId ∉ h.chain := fun hmem =>
    Scheduler.not_known_afterNextId (hs.chain.strung.known _ hmem)
  -- before the new community scope stands the new user scope, which is not over
  have hbefore : (h.move m).chain.IsChain fun p r =>
      r = h.db.scheduler.afterNextId → p = h.db.scheduler.nextId := by
    rw [chain, hl, chainOf_append]
    refine List.isChain_append.mpr ⟨?_, List.isChain_pair.mpr fun _ => rfl, ?_⟩
    · refine (List.isChain_isInfix _).imp_of_mem_imp ?_
      rintro p r - hmem - rfl
      exact absurd hmem hafter
    · rintro p - r hmem heq
      obtain rfl : h.db.scheduler.nextId = r := by simpa [Scheduler.newLink] using hmem
      exact absurd heq Scheduler.nextId_ne_afterNextId
  have hmem : r ∈ (h.move m).chain := hpr.subset (by simp)
  rw [chain, hl, chainOf_append] at hmem
  obtain rfl | rfl : r = h.db.scheduler.nextId ∨ r = h.db.scheduler.afterNextId := by
    simpa [Scheduler.newLink] using (List.mem_append.mp hmem).resolve_left hr
  · refine ⟨hd.happens.eq_newScope, ?_, fun hus => hr (mem_chainOf_of_mem_usersOf hus)⟩
    rw [users, hl, usersOf_append]
    simp [Scheduler.newLink]
  · obtain rfl := rel_of_isChain hbefore hpr rfl
    have hover := Scheduler.isOver_iff.mp ho
    exact absurd hover.2 (hd.served.created _ (Scheduler.known_of_isStarted hover.1)
      Scheduler.not_known_nextId)

/-- **Every move hands over as it should**, when the books are right. -/
theorem Accounted.handsOver (ha : Accounted interval timed moves h) (m : Move) :
    HandsOver interval timed moves h m := by
  obtain ⟨c, hd⟩ := ha.toSound.exists_handed m
  refine ⟨fun p r => hd.attempts_eq ha.toSound, fun p r hpr hdue => ?_, fun r => hd.silent,
    fun p r hpr hdue ho => ?_, fun p r hpr => ?_⟩
  · have hdue' := (hd.due_iff ha.toSound (hpr.subset (by simp))).mpr hdue
    exact ((hd.handover hpr).outcome hdue').imp And.right And.right
  · exact hd.requested ha.toSound hpr hdue.1 (hdue.2.resolve_left fun hno => hno ho)
  · rw [hd.noticed_iff, (hd.handover hpr).refused_iff, hd.due_iff ha.toSound (hpr.subset (by simp))]
    refine and_congr_right fun hdue => ?_
    by_cases hr : r ∈ h.chain
    · have hno : ¬ h.db.scheduler.isOver p := hdue.2.resolve_right fun hn => hn hr
      rw [ha.started p r (hd.neighbours hr hpr), or_iff_right hno]
    · have hns := mt (Scheduler.known_of_isStarted (s := r)) (hd.new (hpr.subset (by simp)) hr).2.2
      exact iff_of_false hns (mt (ha.known r) hr)

/-- As long as no one drops the last handle, no scope stays on the list that is over. -/
theorem struck_history (hd : .act .disown ∉ moves) :
    (history interval timed moves).db.scheduler.owned ∧
      (history interval timed moves).db.scheduler.Struck := by
  induction moves using List.reverseRecOn with
  | nil =>
      have hnew : (history interval timed []).db.scheduler =
          (Scheduler.unborn interval timed).markStarted ⟨0⟩ :=
        congrArg Prod.fst (Scheduler.new_eq interval timed)
      rw [hnew]
      exact ⟨rfl, fun r hr => absurd hr List.not_mem_nil⟩
  | append_singleton moves m ih =>
      obtain ⟨ho, hs⟩ := ih fun hmem => hd (List.mem_append_left _ hmem)
      have hsound := sound_history interval timed moves
      obtain ⟨c, hh, -⟩ := hsound.exists_served m
      have hc : c ≠ .disown := by
        rintro rfl
        exact hd (by simp [hh.eq_disown])
      have hsched : (history interval timed (moves ++ [m])).db.scheduler =
          ((history interval timed moves).db.scheduler.serve c).1 := by
        rw [history, play_concat]
        exact hh.scheduler
      rw [hsched]
      exact ⟨(hsound.chain.owned_serve hc).trans ho, hsound.chain.serve_struck ho hs c⟩

/-- **The chain survives clients that start and end its scopes as they like.** After every run, and in
every move that follows it, every turn that is due is handed over, once; who was started too early is
noticed; and the list of pending scopes is right as long as the database is in use. -/
theorem chain_survives (hd : .act .disown ∉ moves) :
    Survives interval timed moves (history interval timed moves) ∧
      ∀ m, HandsOver interval timed moves (history interval timed moves) m := by
  have ha := accounted_history interval timed moves
  have hs : (history interval timed moves).db.scheduler.Struck := (struck_history hd).2
  have hw := ha.chain.toWoven
  refine ⟨?_, ha.handsOver⟩
  exact {
    started := fun p r hpr ho => ha.toSound.isStarted_of_isOver hpr ho
    tried := ha.tried
    pending := hw.pending_eq hs
    nodup := hw.pending.nodup hw.users_nodup
    count := hw.pendingCount_eq hs
    ended := ha.ended }

/-- A client starts the second user scope itself. When the first one is ended, the chain passes over
the community scope between them, is refused, and a notice tells of it. -/
theorem chain_survives_started_early :
    Survives 0 false [.act .newScope, .act .newScope, .act (.start ⟨3⟩)]
        (history 0 false [.act .newScope, .act .newScope, .act (.start ⟨3⟩)]) ∧
      ∃ e ∈ ((history 0 false [.act .newScope, .act .newScope, .act (.start ⟨3⟩)]).db.move
          (.act (.finish ⟨1⟩))).2,
        Session.noticeOf? ((history 0 false [.act .newScope, .act .newScope,
          .act (.start ⟨3⟩)]).move (.act (.finish ⟨1⟩))).db e = some (.startedTwice ⟨3⟩) := by
  have hsurvives := @chain_survives [.act .newScope, .act .newScope, .act (.start ⟨3⟩)] 0 false
    (by simp)
  refine ⟨hsurvives.1, ((hsurvives.2 (.act (.finish ⟨1⟩))).noticed ⟨2⟩ ⟨3⟩ ?_).mpr ⟨?_, ?_⟩⟩
  · exact ⟨[⟨0⟩, ⟨1⟩], [⟨4⟩], by decide +kernel⟩
  · decide +kernel
  · exact ⟨[.act .newScope, .act .newScope], [], rfl, by decide +kernel, by with_unfolding_all rfl⟩

end History

end ScopedSql
