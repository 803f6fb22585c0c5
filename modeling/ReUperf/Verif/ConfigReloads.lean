import Mathlib.Algebra.Group.Int.Defs
import Mathlib.Data.List.Induction
import ReUperf.Config.Parser
import ReUperf.Lib.History
import ReUperf.Main.ConfigWatch

/-!
# When the configuration is reloaded

The main loop decides from a few variables whether it reloads the configuration. The module tells
the decision from the history of the reloads: which file was loaded last, and how often the present
one failed in a row and when. So no change is forgotten, a file that fails is tried again after
waits that double up to a limit, and an edit of one byte is seen by the hash alone.
-/

namespace ReUperf

namespace Main

/-! ## The hash of a file -/

/-- The prime has an inverse. -/
theorem fnvPrime_inverse : fnvPrime * 14886173955864302971#64 = 1#64 := by decide

/-- Reading a file in pieces is reading it at once. -/
theorem hashPieces_eq {rounds : Nat} {rest : Bytes} (enough : rest.length < rounds)
    (hash : BitVec 64) : hashPieces rounds rest hash = Fnv.hash fnvPrime hash rest := by
  induction rounds generalizing rest hash with
  | zero => omega
  | succ rounds ih =>
    rw [hashPieces]
    by_cases ended : rest.take 4096 = []
    · have empty : rest = [] := by simpa using ended
      rw [if_pos ended, empty]
      rfl
    · have some : rest ≠ [] := by
        intro none
        simp [none] at ended
      have shorter : (rest.drop 4096).length < rounds := by
        have length := List.length_pos_iff.mpr some
        rw [List.length_drop]
        omega
      rw [if_neg ended, ih shorter, ← Fnv.hash_append, List.take_append_drop]

/-- The hash of a file is that of its bytes. -/
theorem computeConfigHash_some (content : Bytes) :
    computeConfigHash (some content) = Fnv.hash fnvPrime fnvOffset content :=
  hashPieces_eq (Nat.lt_succ_self _) fnvOffset

/-- Files that differ in one byte have different hashes. -/
theorem computeConfigHash_ne (before after : Bytes) {first second : UInt8}
    (differ : first ≠ second) :
    computeConfigHash (some (before ++ first :: after)) ≠
      computeConfigHash (some (before ++ second :: after)) := by
  rw [computeConfigHash_some, computeConfigHash_some]
  exact Fnv.hash_ne_of_byte fnvPrime_inverse (by decide) fnvOffset before after differ

/-! ## Runs -/

/-- One round of the main loop. -/
structure ConfigRound where
  /-- What it sees. -/
  check : ConfigCheck
  /-- What a reload would leave. -/
  outcome : AttemptOutcome
  deriving DecidableEq

/-- What is remembered after several rounds. -/
def watchAfter (start : ConfigWatch) (rounds : List ConfigRound) : ConfigWatch :=
  rounds.foldl (fun watch round => watch.round round.check round.outcome) start

/-- The rounds that reload the configuration. -/
def reloads (start : ConfigWatch) : List ConfigRound → List ConfigRound
  | [] => []
  | round :: rest =>
    let later := reloads (start.round round.check round.outcome) rest
    if start.attempts round.check then round :: later else later

variable {start : ConfigWatch} {rounds : List ConfigRound} {round : ConfigRound}

/-- One more round. -/
theorem watchAfter_snoc : watchAfter start (rounds ++ [round]) =
    (watchAfter start rounds).round round.check round.outcome := List.foldl_append

/-- One more round reloads the configuration or does not. -/
theorem reloads_snoc : reloads start (rounds ++ [round]) =
    if (watchAfter start rounds).attempts round.check then reloads start rounds ++ [round]
    else reloads start rounds := by
  induction rounds generalizing start with
  | nil => rfl
  | cons first rest ih =>
    rw [List.cons_append, reloads, reloads, ih]
    have later : watchAfter start (first :: rest) =
        watchAfter (start.round first.check first.outcome) rest := rfl
    rw [later]
    split <;> split <;> rfl

/-! ## The file that was loaded last -/

/-- The file a round loaded. -/
def loadedBy (round : ConfigRound) : Option ConfigCheck :=
  if round.outcome.succeeded then some round.check else none

/-- The file that was loaded last. -/
def loadedCheck (first : ConfigCheck) (history : List ConfigRound) : ConfigCheck :=
  (Effect.History.lastOf loadedBy history).getD first

/-- What is remembered of the loaded file is its modification time and its hash. -/
theorem watchAfter_loaded (first : ConfigCheck) (timing : RetryTiming)
    (rounds : List ConfigRound) :
    let loaded := loadedCheck first (reloads (.initial first timing) rounds)
    (watchAfter (.initial first timing) rounds).lastMtime = loaded.mtime ∧
      (watchAfter (.initial first timing) rounds).lastConfigHash = loaded.hash := by
  induction rounds using List.reverseRecOn with
  | nil => exact ⟨rfl, rfl⟩
  | append_singleton rounds round ih =>
    dsimp only at ih ⊢
    rw [watchAfter_snoc, reloads_snoc, ConfigWatch.round]
    by_cases attempted : (watchAfter (.initial first timing) rounds).attempts round.check = true
    · rw [if_pos attempted, if_pos attempted, ConfigWatch.settle, loadedCheck,
        Effect.History.lastOf_snoc]
      by_cases succeeded : round.outcome.succeeded = true
      · simp [succeeded, loadedBy]
      · rw [if_neg succeeded, loadedBy, if_neg succeeded, Option.none_or]
        split <;> exact ih
    · rw [if_neg attempted, if_neg attempted]
      exact ih

/-! ## The failures in a row -/

/-- One more reload succeeds, fails, or fails on a file that cannot be opened. -/
def addFailure (failures : List ConfigRound) (round : ConfigRound) : List ConfigRound :=
  if round.outcome.succeeded then []
  else if round.check.hash ≠ 0 then failures ++ [round]
  else failures

/-- The reloads that failed since the last one that succeeded. -/
def failuresSince (history : List ConfigRound) : List ConfigRound := history.foldl addFailure []

/-- How often a file failed in a row. -/
def streak (hash : BitVec 64) (failures : List ConfigRound) : Nat :=
  (failures.reverse.takeWhile fun round => round.check.hash = hash).length

/-- A file fails once more. -/
theorem streak_snoc (failures : List ConfigRound) (round : ConfigRound) :
    streak round.check.hash (failures ++ [round]) = streak round.check.hash failures + 1 := by
  rw [streak, List.reverse_append, List.reverse_singleton, List.singleton_append,
    List.takeWhile_cons_of_pos (by simp), List.length_cons, streak]

/-- Another file failed last. -/
theorem streak_snoc_ne {hash : BitVec 64} (failures : List ConfigRound)
    (other : round.check.hash ≠ hash) : streak hash (failures ++ [round]) = 0 := by
  rw [streak, List.reverse_append, List.reverse_singleton, List.singleton_append,
    List.takeWhile_cons_of_neg (by simpa using other), List.length_nil]

/-- One more reload is added to the failures since the last success, or empties them. -/
theorem failuresSince_snoc (history : List ConfigRound) :
    failuresSince (history ++ [round]) = addFailure (failuresSince history) round :=
  List.foldl_append

/-- A failure since the last success is a failed reload of a file with a hash. -/
theorem failed_of_mem {history : List ConfigRound} (member : round ∈ failuresSince history) :
    round ∈ history ∧ round.outcome.succeeded = false ∧ round.check.hash ≠ 0 := by
  induction history using List.reverseRecOn with
  | nil => simp [failuresSince] at member
  | append_singleton history last ih =>
    rw [failuresSince_snoc, addFailure] at member
    by_cases succeeded : last.outcome.succeeded = true
    · rw [if_pos succeeded] at member
      exact absurd member List.not_mem_nil
    · rw [if_neg succeeded] at member
      by_cases hashed : last.check.hash ≠ 0
      · rw [if_pos hashed] at member
        rcases List.mem_append.mp member with earlier | now
        · have found := ih earlier
          exact ⟨List.mem_append_left _ found.1, found.2⟩
        · rw [List.mem_singleton.mp now]
          exact ⟨by simp, by simpa using succeeded, hashed⟩
      · rw [if_neg hashed] at member
        have found := ih member
        exact ⟨List.mem_append_left _ found.1, found.2⟩

/-! ## The waits -/

/-- The delays the parser lets through. -/
structure RetryTiming.Valid (timing : RetryTiming) : Prop where
  /-- There is a delay. -/
  positive : 1 ≤ timing.initialDelayS
  /-- The limit is not below it. -/
  ordered : timing.initialDelayS ≤ timing.maxDelayS
  /-- The limit is at most five minutes. -/
  bounded : timing.maxDelayS ≤ 300

/-- What is remembered of the failures: the last one, and a good wait after it. -/
structure Remembers (good : List ConfigRound → Int → Prop) (failures : List ConfigRound)
    (watch : ConfigWatch) : Prop where
  /-- Nothing is remembered when there is none. -/
  none : failures = [] → watch.failedConfigHash = 0 ∧ watch.nextConfigRetry = none
  /-- The last one is remembered. -/
  last : ∀ front failure, failures = front ++ [failure] →
    watch.failedConfigHash = failure.check.hash ∧ ∃ wait, good failures wait ∧
      watch.nextConfigRetry = some (failure.check.now + wait * 1000000000)

variable {good : List ConfigRound → Int → Prop} {failures : List ConfigRound}
  {watch : ConfigWatch} {check : ConfigCheck}

/-- The delay a failure leads to. -/
def delayAfter (watch : ConfigWatch) (check : ConfigCheck) (outcome : AttemptOutcome) : Int :=
  if watch.failedConfigHash = check.hash then
    min ((if outcome.delayReset then outcome.timing.initialDelayS
      else watch.retryDelaySeconds) * 2) outcome.timing.maxDelayS
  else outcome.timing.initialDelayS

/-- A reload is remembered when the delay it leads to is good. -/
theorem Remembers.settle (remembers : Remembers good failures watch)
    (next : round.outcome.succeeded = false → round.check.hash ≠ 0 →
      good (failures ++ [round]) (delayAfter watch round.check round.outcome)) :
    Remembers good (addFailure failures round) (watch.settle round.check round.outcome) := by
  rw [addFailure, ConfigWatch.settle]
  by_cases succeeded : round.outcome.succeeded = true
  · rw [if_pos succeeded, if_pos succeeded]
    exact ⟨fun _ => ⟨rfl, rfl⟩, fun front failure same => absurd same (by simp)⟩
  · have failed : round.outcome.succeeded = false := by simpa using succeeded
    rw [if_neg succeeded, if_neg succeeded]
    by_cases hashed : round.check.hash ≠ 0
    · rw [if_pos hashed, if_pos hashed]
      constructor
      · intro empty
        exact absurd empty (by simp)
      · intro front failure same
        obtain ⟨-, lasts⟩ := List.append_inj' same rfl
        obtain ⟨rfl, -⟩ := List.cons.inj lasts
        exact ⟨rfl, _, next failed hashed, rfl⟩
    · rw [if_neg hashed, if_neg hashed]
      exact ⟨remembers.none, remembers.last⟩

/-- A remembered failure defers exactly the reloads of its file within its wait. -/
theorem Remembers.deferred_iff (remembers : Remembers good failures watch) :
    watch.retryDeferred check = true ↔ check.hash ≠ 0 ∧ ∃ front failure wait,
      failures = front ++ [failure] ∧ failure.check.hash = check.hash ∧ good failures wait ∧
        watch.nextConfigRetry = some (failure.check.now + wait * 1000000000) ∧
        check.now < failure.check.now + wait * 1000000000 := by
  rw [ConfigWatch.retryDeferred, Bool.and_eq_true, Bool.and_eq_true, decide_eq_true_eq,
    decide_eq_true_eq]
  constructor
  · rintro ⟨⟨hashed, same⟩, early⟩
    refine ⟨hashed, ?_⟩
    rcases List.eq_nil_or_concat' failures with empty | ⟨front, failure, split⟩
    · rw [(remembers.none empty).1] at same
      exact absurd same hashed
    · obtain ⟨hash, wait, isGood, next⟩ := remembers.last front failure split
      rw [next] at early
      exact ⟨front, failure, wait, split, hash.symm.trans same.symm, isGood, next,
        of_decide_eq_true early⟩
  · rintro ⟨hashed, front, failure, wait, split, same, -, next, early⟩
    obtain ⟨hash, -⟩ := remembers.last front failure split
    refine ⟨⟨hashed, (hash.trans same).symm⟩, ?_⟩
    rw [next]
    exact decide_eq_true early

/-- A round that reloads nothing forgets nothing, and one that reloads is settled. -/
theorem round_eq : watch.round round.check round.outcome =
    if watch.attempts round.check then watch.settle round.check round.outcome else watch := rfl

/-- Every wait is between a second and five minutes. -/
theorem watchAfter_bounded (first : ConfigCheck) {timing : RetryTiming} (starts : timing.Valid)
    (valid : ∀ round ∈ rounds, round.outcome.timing.Valid) :
    Remembers (fun _ wait => 1 ≤ wait ∧ wait ≤ 300)
        (failuresSince (reloads (.initial first timing) rounds))
        (watchAfter (.initial first timing) rounds) ∧
      1 ≤ (watchAfter (.initial first timing) rounds).retryDelaySeconds := by
  induction rounds using List.reverseRecOn with
  | nil =>
    exact ⟨⟨fun _ => ⟨rfl, rfl⟩, fun front failure same => absurd same (by simp [reloads,
      failuresSince])⟩, starts.positive⟩
  | append_singleton rounds round ih =>
    obtain ⟨remembers, delay⟩ := ih fun other member => valid other (List.mem_append_left _ member)
    have own := valid round (by simp)
    have positive := own.positive
    have ordered := own.ordered
    have bounded := own.bounded
    rw [watchAfter_snoc, reloads_snoc, round_eq]
    by_cases attempted : (watchAfter (.initial first timing) rounds).attempts round.check = true
    · rw [if_pos attempted, if_pos attempted, failuresSince_snoc]
      refine ⟨remembers.settle fun _ _ => ?_, ?_⟩
      · rw [delayAfter]
        split
        · split <;> omega
        · omega
      · rw [ConfigWatch.settle]
        dsimp only
        split
        · exact positive
        · split
          · dsimp only
            split
            · split <;> omega
            · exact positive
          · dsimp only
            split
            · exact positive
            · exact delay
    · rw [if_neg attempted, if_neg attempted]
      exact ⟨remembers, delay⟩

/-- The wait after failures in a row: it doubles up to the limit. -/
def waitOf (timing : RetryTiming) (failures : List ConfigRound) (hash : BitVec 64) : Int :=
  min (timing.initialDelayS * 2 ^ (streak hash failures - 1)) timing.maxDelayS

/-- The wait is that of the failures in a row, while the delays stay the same. -/
theorem watchAfter_doubles (first : ConfigCheck) {timing : RetryTiming} (valid : timing.Valid)
    (steady : ∀ round ∈ rounds, round.outcome.timing = timing ∧
      (round.outcome.succeeded = false → round.outcome.delayReset = false)) :
    Remembers (fun failures wait => ∀ front failure, failures = front ++ [failure] →
        wait = waitOf timing failures failure.check.hash)
        (failuresSince (reloads (.initial first timing) rounds))
        (watchAfter (.initial first timing) rounds) ∧
      ∀ front failure, failuresSince (reloads (.initial first timing) rounds) =
          front ++ [failure] →
        (watchAfter (.initial first timing) rounds).retryDelaySeconds =
          waitOf timing (failuresSince (reloads (.initial first timing) rounds))
            failure.check.hash := by
  have ordered := valid.ordered
  have positive : 0 < timing.initialDelayS := valid.positive
  induction rounds using List.reverseRecOn with
  | nil =>
    refine ⟨⟨fun _ => ⟨rfl, rfl⟩, fun front failure same => ?_⟩, fun front failure same => ?_⟩
    · exact absurd same (by simp [reloads, failuresSince])
    · exact absurd same (by simp [reloads, failuresSince])
  | append_singleton rounds round ih =>
    obtain ⟨remembers, delay⟩ := ih fun other member =>
      steady other (List.mem_append_left _ member)
    obtain ⟨same, kept⟩ := steady round (by simp)
    rw [watchAfter_snoc, reloads_snoc, round_eq]
    by_cases attempted : (watchAfter (.initial first timing) rounds).attempts round.check = true
    · rw [if_pos attempted, if_pos attempted, failuresSince_snoc]
      have wait : round.outcome.succeeded = false → round.check.hash ≠ 0 →
          delayAfter (watchAfter (.initial first timing) rounds) round.check round.outcome =
            waitOf timing (failuresSince (reloads (.initial first timing) rounds) ++ [round])
              round.check.hash := by
        intro failed hashed
        rw [delayAfter, same, kept failed, waitOf, streak_snoc, Nat.add_sub_cancel]
        rcases List.eq_nil_or_concat'
          (failuresSince (reloads (.initial first timing) rounds)) with empty | ⟨front, last, split⟩
        · have fresh : ¬ (watchAfter (.initial first timing) rounds).failedConfigHash =
              round.check.hash := by
            rw [(remembers.none empty).1]
            exact Ne.symm hashed
          rw [if_neg fresh, empty]
          simp [streak, ordered]
        · rw [(remembers.last front last split).1]
          by_cases again : last.check.hash = round.check.hash
          · have rest := delay front last split
            rw [if_pos again, if_neg Bool.false_ne_true, rest, waitOf, again, split,
              ← again, streak_snoc, Nat.add_sub_cancel, Int.pow_succ, ← Int.mul_assoc]
            have power : 0 < timing.initialDelayS * 2 ^ streak last.check.hash front :=
              Int.mul_pos positive (Int.pow_pos (by decide))
            generalize timing.initialDelayS * 2 ^ streak last.check.hash front = product at power ⊢
            omega
          · rw [if_neg again, split, streak_snoc_ne _ again]
            simp [ordered]
      refine ⟨remembers.settle fun failed hashed => ?_, fun front failure split => ?_⟩
      · intro front failure split
        obtain ⟨-, lasts⟩ := List.append_inj' split rfl
        obtain ⟨rfl, -⟩ := List.cons.inj lasts
        exact wait failed hashed
      · by_cases succeeded : round.outcome.succeeded = true
        · rw [addFailure, if_pos succeeded] at split
          exact absurd split (by simp)
        · have failed : round.outcome.succeeded = false := by simpa using succeeded
          by_cases hashed : round.check.hash ≠ 0
          · rw [addFailure, if_neg succeeded, if_pos hashed] at split ⊢
            obtain ⟨-, lasts⟩ := List.append_inj' split rfl
            obtain ⟨rfl, -⟩ := List.cons.inj lasts
            rw [← wait failed hashed, ConfigWatch.settle, if_neg succeeded, if_pos hashed]
            rfl
          · rw [addFailure, if_neg succeeded, if_neg hashed] at split ⊢
            rw [ConfigWatch.settle, if_neg succeeded, if_neg hashed, kept failed,
              if_neg Bool.false_ne_true]
            exact delay front failure split
    · rw [if_neg attempted, if_neg attempted]
      exact ⟨remembers, delay⟩

/-! ## The decision -/

/-- The file is not the one that was loaded last, or the watcher saw it written. -/
def IsChanged (loaded check : ConfigCheck) : Prop :=
  check.changedInotify = true ∨ (check.mtime ≠ loaded.mtime ∧ 0 < check.mtime) ∨
    (check.hash ≠ loaded.hash ∧ check.hash ≠ 0)

/-- A round reloads a changed file unless it defers it. -/
theorem attempts_iff_changed (first : ConfigCheck) (timing : RetryTiming) :
    (watchAfter (.initial first timing) rounds).attempts check = true ↔
      IsChanged (loadedCheck first (reloads (.initial first timing) rounds)) check ∧
        (watchAfter (.initial first timing) rounds).retryDeferred check = false := by
  obtain ⟨mtime, hash⟩ := watchAfter_loaded first timing rounds
  rw [ConfigWatch.attempts, Bool.and_eq_true, Bool.or_eq_true, Bool.not_eq_true',
    ConfigWatch.changedFallback, mtime, hash, IsChanged]
  simp

/-- A changed file is reloaded unless it failed to load less than five minutes ago. -/
theorem reloaded_or_deferred (first : ConfigCheck) {timing : RetryTiming} (starts : timing.Valid)
    (valid : ∀ round ∈ rounds, round.outcome.timing.Valid)
    (changed : IsChanged (loadedCheck first (reloads (.initial first timing) rounds)) check) :
    (watchAfter (.initial first timing) rounds).attempts check = true ∨
      ∃ front failure, failuresSince (reloads (.initial first timing) rounds) =
          front ++ [failure] ∧ failure.check.hash = check.hash ∧
        check.now < failure.check.now + 300 * 1000000000 := by
  have remembers := (watchAfter_bounded first starts valid).1
  by_cases deferred : (watchAfter (.initial first timing) rounds).retryDeferred check = true
  · obtain ⟨-, front, failure, wait, split, same, bounds, -, early⟩ :=
      remembers.deferred_iff.mp deferred
    exact .inr ⟨front, failure, split, same, by omega⟩
  · exact .inl ((attempts_iff_changed first timing).mpr ⟨changed, by simpa using deferred⟩)

/-- In every run, whatever the reloads leave: a changed file is reloaded, unless it was the last file
that failed to load since one was loaded, less than five minutes ago. It is not reloaded within a
second of such a failure. -/
theorem reload_bounds (first : ConfigCheck) {timing : RetryTiming} (starts : timing.Valid)
    (valid : ∀ round ∈ rounds, round.outcome.timing.Valid) :
    (IsChanged (loadedCheck first (reloads (.initial first timing) rounds)) check →
      (watchAfter (.initial first timing) rounds).attempts check = true ∨
        ∃ front failure, failuresSince (reloads (.initial first timing) rounds) =
            front ++ [failure] ∧ failure.check.hash = check.hash ∧
          check.now < failure.check.now + 300 * 1000000000) ∧
    ((watchAfter (.initial first timing) rounds).attempts check = true → check.hash ≠ 0 →
      ∀ front failure, failuresSince (reloads (.initial first timing) rounds) =
          front ++ [failure] → failure.check.hash = check.hash →
        failure.check.now + 1000000000 ≤ check.now) := by
  have remembers := (watchAfter_bounded first starts valid).1
  refine ⟨reloaded_or_deferred first starts valid, ?_⟩
  intro attempted hashed front failure split same
  have notDeferred := ((attempts_iff_changed first timing).mp attempted).2
  obtain ⟨-, wait, bounds, next⟩ := remembers.last front failure split
  by_contra early
  have deferred := remembers.deferred_iff.mpr
    ⟨hashed, front, failure, wait, split, same, bounds, next, by omega⟩
  rw [notDeferred] at deferred
  exact Bool.false_ne_true deferred

/-- The delays of a configuration that was parsed are good. -/
theorem valid_parseTiming (sched : Json) :
    (RetryTiming.mk (ConfigParser.parseTiming sched).configRetryInitialDelayS
      (ConfigParser.parseTiming sched).configRetryMaxDelayS).Valid := by
  unfold ConfigParser.parseTiming
  split
  · next members _ =>
    have first := @ConfigParser.parseBoundedInt_bounds (.object members)
      "config_retry_initial_delay_s" 1 1 60 (by omega) (by omega)
    have limit := @ConfigParser.parseBoundedInt_bounds (.object members)
      "config_retry_max_delay_s" 5 1 300 (by omega) (by omega)
    constructor
    · exact first.1
    · dsimp only
      split <;> omega
    · dsimp only
      split <;> omega
  · exact ⟨by decide, by decide, by decide⟩

/-- The delays of a configuration without a timing section. -/
def plainTiming : RetryTiming := ⟨1, 5⟩

/-- They are good. -/
theorem plainTiming_valid : plainTiming.Valid := valid_parseTiming (.object [])

/-- A file with one byte. -/
def oneByte (byte : UInt8) (mtime now : Int) : ConfigCheck := ⟨false, mtime, some [byte], now⟩

/-- A file that fails to load at a time. -/
def failsAt (now : Int) : ConfigRound := ⟨oneByte 98 2 now, ⟨false, plainTiming, false⟩⟩

/-- The rounds with such a file have good delays. -/
theorem failsAt_valid {now : Int} : ∀ round ∈ [failsAt now], round.outcome.timing.Valid := by
  intro round member
  rw [List.mem_singleton.mp member]
  exact plainTiming_valid

theorem reload_bounds_failed :
    (watchAfter (.initial (oneByte 97 1 0) plainTiming) [failsAt 0]).attempts
        (oneByte 98 2 1000000000) = true ∧
      (failsAt 0).check.now + 1000000000 ≤ 1000000000 := by
  have attempted : (watchAfter (.initial (oneByte 97 1 0) plainTiming) [failsAt 0]).attempts
      (oneByte 98 2 1000000000) = true := by
    decide
  have failed : failuresSince (reloads (.initial (oneByte 97 1 0) plainTiming) [failsAt 0]) =
      [] ++ [failsAt 0] := by
    decide
  have bounds := @reload_bounds [failsAt 0] (oneByte 98 2 1000000000) (oneByte 97 1 0) plainTiming
    plainTiming_valid failsAt_valid
  exact ⟨attempted, bounds.2 attempted (by decide) [] (failsAt 0) failed rfl⟩

/-- While the delays stay the same, a round reloads the file exactly when it is changed and does not
wait: after failures of the present file in a row, with no other file loaded or failed since, it
waits from the last one for the first delay, doubled with each failure up to the limit. -/
theorem attempts_iff (first : ConfigCheck) {timing : RetryTiming} (valid : timing.Valid)
    (steady : ∀ round ∈ rounds, round.outcome.timing = timing ∧
      (round.outcome.succeeded = false → round.outcome.delayReset = false)) :
    (watchAfter (.initial first timing) rounds).attempts check = true ↔
      IsChanged (loadedCheck first (reloads (.initial first timing) rounds)) check ∧
        ¬ (check.hash ≠ 0 ∧ ∃ front failure,
          failuresSince (reloads (.initial first timing) rounds) = front ++ [failure] ∧
          failure.check.hash = check.hash ∧
          check.now < failure.check.now + 1000000000 *
            waitOf timing (failuresSince (reloads (.initial first timing) rounds)) check.hash) := by
  have remembers := (watchAfter_doubles first valid steady).1
  rw [attempts_iff_changed, ← Bool.not_eq_true, remembers.deferred_iff]
  refine and_congr_right fun _ => not_congr (and_congr_right fun _ => ?_)
  constructor
  · rintro ⟨front, failure, wait, split, same, good, -, early⟩
    refine ⟨front, failure, split, same, ?_⟩
    rw [← same, ← good front failure split]
    omega
  · rintro ⟨front, failure, split, same, early⟩
    obtain ⟨-, wait, good, next⟩ := remembers.last front failure split
    have equal := good front failure split
    rw [← same, ← equal] at early
    exact ⟨front, failure, wait, split, same, good, next, by omega⟩

theorem attempts_iff_failed_twice :
    ¬ (watchAfter (.initial (oneByte 97 1 0) plainTiming)
      [failsAt 0, failsAt 1000000000]).attempts (oneByte 98 2 2000000000) = true := by
  have steady : ∀ round ∈ [failsAt 0, failsAt 1000000000], round.outcome.timing = plainTiming ∧
      (round.outcome.succeeded = false → round.outcome.delayReset = false) := by
    decide
  have failed : failuresSince (reloads (.initial (oneByte 97 1 0) plainTiming)
      [failsAt 0, failsAt 1000000000]) = [failsAt 0] ++ [failsAt 1000000000] := by
    decide
  have waits : (2000000000 : Int) < 1000000000 + 1000000000 *
      waitOf plainTiming (failuresSince (reloads (.initial (oneByte 97 1 0) plainTiming)
        [failsAt 0, failsAt 1000000000])) (oneByte 98 2 2000000000).hash := by
    decide
  intro attempted
  exact ((attempts_iff (oneByte 97 1 0) plainTiming_valid steady).mp attempted).2
    ⟨by decide, [failsAt 0], failsAt 1000000000, failed, rfl, waits⟩

/-- An edit of one byte of the loaded file is reloaded, even when neither the watcher nor the
modification time tells it, unless the edited file failed to load less than five minutes ago. Only a
file whose hash is zero is not seen. -/
theorem edit_attempted (first : ConfigCheck) {timing : RetryTiming} (starts : timing.Valid)
    (valid : ∀ round ∈ rounds, round.outcome.timing.Valid) {before after : Bytes}
    {old new : UInt8} (edited : old ≠ new)
    (loaded : (loadedCheck first (reloads (.initial first timing) rounds)).content =
      some (before ++ old :: after))
    (now : check.content = some (before ++ new :: after)) (hashed : check.hash ≠ 0) :
    (watchAfter (.initial first timing) rounds).attempts check = true ∨
      ∃ front failure, failuresSince (reloads (.initial first timing) rounds) =
          front ++ [failure] ∧ failure.check.hash = check.hash ∧
        check.now < failure.check.now + 300 * 1000000000 := by
  have differs : check.hash ≠
      (loadedCheck first (reloads (.initial first timing) rounds)).hash := by
    rw [ConfigCheck.hash, ConfigCheck.hash, now, loaded]
    exact computeConfigHash_ne before after edited.symm
  exact reloaded_or_deferred first starts valid (.inr (.inr ⟨differs, hashed⟩))

theorem edit_attempted_first :
    (watchAfter (.initial (oneByte 97 1 0) plainTiming) []).attempts (oneByte 98 1 0) = true := by
  have edited : (97 : UInt8) ≠ 98 := by decide
  have none : ∀ round ∈ ([] : List ConfigRound), round.outcome.timing.Valid := by simp
  rcases @edit_attempted [] (oneByte 98 1 0) (oneByte 97 1 0) plainTiming plainTiming_valid none
    [] [] 97 98 edited rfl rfl (by decide) with attempted | ⟨front, failure, split, -⟩
  · exact attempted
  · exact absurd split (by simp [reloads, failuresSince])

end Main

end ReUperf
