import ScopedSql.Proofs.Scope.Turn

/-!
# What an agenda does, job by job

`run` works off an agenda and returns the events alone. The laws of hooks speak of the jobs behind
them: which command was given when, and which jobs a command brought about before it was done. `log`
has one entry for each job at the moment of its turn (`run_events`), and `LogEntry.within` is the part
of the log that belongs to one entry: the jobs that it gave rise to are worked off before anything
else is (`log_eq_cons`).

`log_induct` is the principle by which a fact is carried along the log.
-/

namespace ScopedSql

/-- **A job at its turn.** -/
structure LogEntry where
  /-- The scheduler that the job finds. -/
  scheduler : Scheduler
  /-- The job. -/
  job : Job

/-- What the job does. -/
def LogEntry.effect (d : LogEntry) : Effect := d.scheduler.step d.job

namespace Scheduler

/-- **The jobs of a run**, those of the agenda and those that they give rise to, in order. -/
def log (w : Scheduler) : List Job → List LogEntry
  | [] => []
  | j :: rest => ⟨w, j⟩ :: log (w.step j).scheduler ((w.step j).jobs ++ rest)
termination_by jobs => w.weight + agendaWeight jobs
decreasing_by
  have h := step_weight_lt w j
  have hcons : agendaWeight (j :: rest) = j.weight + agendaWeight rest := rfl
  rw [agendaWeight_append, hcons]
  omega

end Scheduler

/-- **What happens inside a job**: the run of the jobs that it gives rise to. -/
def LogEntry.within (d : LogEntry) : List LogEntry := d.effect.scheduler.log d.effect.jobs

namespace Scheduler

variable {w : Scheduler} {jobs : List Job} {before after done : List LogEntry} {d : LogEntry}

@[simp] theorem log_nil (w : Scheduler) : w.log [] = [] := by
  rw [log]

/-- The log of a run: its first job, and the log of what is left with what the job gave rise to. -/
theorem log_cons (w : Scheduler) (j : Job) (rest : List Job) :
    w.log (j :: rest) =
      ⟨w, j⟩ :: (w.step j).scheduler.log ((w.step j).jobs ++ rest) := by
  rw [log]

/-- A run has nothing to do only if the agenda is empty. -/
theorem log_eq_nil_iff : w.log jobs = [] ↔ jobs = [] := by
  cases jobs with
  | nil => simp
  | cons j rest => simp [log_cons]

/-- **Runs are followed along their log**: a fact about the jobs that were done, the scheduler and
what is left of the agenda holds at every point of a run if it holds at its begin and no job breaks
it. -/
theorem log_induct {P : List LogEntry → Scheduler → List Job → Prop}
    (step : ∀ done u j rest, P done u (j :: rest) →
      P (done ++ [⟨u, j⟩]) (u.step j).scheduler ((u.step j).jobs ++ rest))
    (h : P done w jobs) (heq : w.log jobs = before ++ after) :
    ∃ u agenda, P (done ++ before) u agenda ∧ u.log agenda = after ∧
      (u.run agenda).1 = (w.run jobs).1 := by
  induction before generalizing w jobs done with
  | nil => exact ⟨w, jobs, by simpa using h, heq, rfl⟩
  | cons d before ih =>
      cases jobs with
      | nil => simp at heq
      | cons j rest =>
          rw [log_cons, List.cons_append, List.cons.injEq] at heq
          obtain ⟨rfl, heq⟩ := heq
          obtain ⟨u, agenda, hu, hd, hr⟩ := ih (step done w j rest h) heq
          refine ⟨u, agenda, by simpa using hu, hd, ?_⟩
          rw [hr, run_cons]
          rfl

/-- The last scheduler of a run keeps what every job keeps. -/
theorem log_induct_run {P : List LogEntry → Scheduler → List Job → Prop}
    (step : ∀ done u j rest, P done u (j :: rest) →
      P (done ++ [⟨u, j⟩]) (u.step j).scheduler ((u.step j).jobs ++ rest))
    (h : P done w jobs) : P (done ++ w.log jobs) (w.run jobs).1 [] := by
  obtain ⟨u, agenda, hu, hd, hr⟩ :=
    log_induct step h (List.append_nil (w.log jobs)).symm
  obtain rfl := log_eq_nil_iff.mp hd
  rw [run_nil] at hr
  rw [← hr]
  exact hu

/-- The events of a run are those of its jobs. -/
theorem run_events (w : Scheduler) (jobs : List Job) :
    (w.run jobs).2 = (w.log jobs).flatMap fun d => d.effect.events := by
  induction w, jobs using log.induct with
  | case1 w => simp
  | case2 w j rest ih =>
      rw [run_cons, log_cons, List.flatMap_cons, ← ih]
      rfl

/-- Two agendas after each other. -/
theorem log_append (w : Scheduler) (first second : List Job) :
    w.log (first ++ second) = w.log first ++ (w.run first).1.log second := by
  induction w, first using log.induct with
  | case1 w => simp
  | case2 w j rest ih =>
      rw [List.cons_append, log_cons, log_cons, run_cons, ← List.append_assoc, ih]
      rfl

/-- **Whatever a job brings about is done before the rest of the agenda.** -/
theorem log_eq_cons (h : w.log jobs = d :: after) :
    ∃ rest, jobs = d.job :: rest ∧ w = d.scheduler ∧
      after = d.within ++ (d.effect.scheduler.run d.effect.jobs).1.log rest := by
  cases jobs with
  | nil => simp at h
  | cons j rest =>
      rw [log_cons, List.cons.injEq] at h
      obtain ⟨rfl, rfl⟩ := h
      exact ⟨rest, rfl, rfl, log_append _ _ _⟩

end Scheduler

end ScopedSql
