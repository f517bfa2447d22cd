import Mathlib.Data.List.Perm.Basic
import Mathlib.Data.List.Nodup
import StackSampler.Session.Signals

/-!
# Signals come back

Guards may overlap and be dropped in any order, and the system may refuse to install a handler.
The list of taken signals has one entry for each signal that some guard holds: it counts the guards
and keeps what answered the signal before the first of them.  The entry is made when the first guard
takes the signal and removed when the last one gives it back, so the session's own handler is never
taken for the host's.

The main statement is `GuardedHost.run_restores`.
-/

namespace StackSampler

namespace Dispositions

/-! ## The list of taken signals -/

variable {entries : List TakenSignal} {place : Nat}

/-- All but the removed entry stay, in whatever order. -/
theorem swapRemove_perm (inside : place < entries.length) :
    (swapRemove entries place).Perm (entries.eraseIdx place) := by
  rcases List.eq_nil_or_concat' entries with rfl | ⟨front, last, rfl⟩
  · cases inside
  · have removed : swapRemove (front ++ [last]) place =
        ((front ++ [last]).set place last).dropLast := by
      simp [swapRemove]
    rw [removed]
    by_cases before : place < front.length
    · rw [List.set_append_left _ _ before, List.dropLast_concat,
        List.eraseIdx_append_of_lt_length before]
      apply (List.set_perm_cons_eraseIdx before last).trans
      exact (List.perm_append_singleton last _).symm
    · have atEnd : place = front.length := by
        simp only [List.length_append, List.length_singleton] at inside
        omega
      subst atEnd
      rw [List.set_append_right _ _ (Nat.le_refl _),
        List.eraseIdx_append_of_length_le (Nat.le_refl _)]
      simp

/-- The entries of the list name their signals once each. -/
def Distinct (entries : List TakenSignal) : Prop :=
  (entries.map (·.signal)).Nodup

theorem Distinct.perm {other : List TakenSignal} (distinct : Distinct entries)
    (perm : other.Perm entries) : Distinct other :=
  (perm.map _).nodup_iff.mpr distinct

theorem Distinct.eraseIdx (distinct : Distinct entries) (place : Nat) :
    Distinct (entries.eraseIdx place) :=
  List.Sublist.nodup ((List.eraseIdx_sublist entries place).map _) distinct

theorem Distinct.eq_of_mem {first second : TakenSignal} (distinct : Distinct entries)
    (mem : first ∈ entries) (mem' : second ∈ entries) (same : first.signal = second.signal) :
    first = second :=
  List.inj_on_of_nodup_map distinct mem mem' same

/-- Without one entry there are the entries of the other signals. -/
theorem Distinct.mem_eraseIdx_iff {entry : TakenSignal} (distinct : Distinct entries)
    (inside : place < entries.length) :
    entry ∈ entries.eraseIdx place ↔
      entry ∈ entries ∧ entry.signal ≠ entries[place].signal := by
  have nodup : entries.Nodup := List.Nodup.of_map _ distinct
  rw [← nodup.erase_getElem place inside, nodup.mem_erase_iff]
  constructor
  · rintro ⟨differs, mem⟩
    exact ⟨mem, fun same => differs (distinct.eq_of_mem mem (List.getElem_mem inside) same)⟩
  · rintro ⟨mem, differs⟩
    exact ⟨fun same => differs (congrArg TakenSignal.signal same), mem⟩

/-! ## Counting the holders -/

variable {before : Signal → SignalHandler} {holders : Signal → Nat} {dispositions : Dispositions}
  {signal : Signal}

/-- The entry of a signal with a number of holders. -/
def entryOf (before : Signal → SignalHandler) (holders : Signal → Nat) (signal : Signal) :
    TakenSignal :=
  ⟨signal, holders signal, before signal⟩

/--
The dispositions are those of guards that hold each signal so many times, where `before` is what
answered the signals before any guard did.
-/
structure Counts (before : Signal → SignalHandler) (holders : Signal → Nat)
    (dispositions : Dispositions) : Prop where
  distinct : Distinct dispositions.taken
  mem_iff : ∀ entry, entry ∈ dispositions.taken ↔
    holders entry.signal ≠ 0 ∧ entry = entryOf before holders entry.signal
  handler : ∀ signal,
    dispositions.handler signal = if holders signal = 0 then before signal else signal.handler

namespace Counts

theorem congr {others : Signal → Nat} (counts : Counts before holders dispositions)
    (same : ∀ signal, others signal = holders signal) : Counts before others dispositions := by
  have equal : others = holders := funext same
  exact equal ▸ counts

/-- Only a signal that nobody holds has no place. -/
theorem place?_eq_none_iff (counts : Counts before holders dispositions) :
    dispositions.place? signal = none ↔ holders signal = 0 := by
  rw [place?, List.findIdx?_eq_none_iff]
  constructor
  · intro unlisted
    by_contra held
    have listed : entryOf before holders signal ∈ dispositions.taken :=
      (counts.mem_iff _).mpr ⟨held, rfl⟩
    simpa [entryOf] using unlisted _ listed
  · intro unheld entry mem
    simp only [beq_eq_false_iff_ne]
    rintro rfl
    exact ((counts.mem_iff entry).mp mem).1 unheld

/-- The entry at the place of a signal says how many guards hold it. -/
theorem of_place? (counts : Counts before holders dispositions)
    (found : dispositions.place? signal = some place) :
    holders signal ≠ 0 ∧
      ∃ inside : place < dispositions.taken.length,
        dispositions.taken[place] = entryOf before holders signal := by
  rcases List.findIdx?_eq_some_iff_getElem.mp found with ⟨inside, named, -⟩
  have same : dispositions.taken[place].signal = signal := by simpa using named
  have listed := (counts.mem_iff _).mp (List.getElem_mem inside)
  rw [same] at listed
  exact ⟨listed.1, inside, listed.2⟩

/-- What a lookup finds is the number of holders. -/
theorem users_eq (counts : Counts before holders dispositions) (signal : Signal) :
    dispositions.users signal = holders signal := by
  rw [users]
  cases found : dispositions.record? signal with
  | none =>
      rw [record?, List.find?_eq_none] at found
      by_contra held
      have listed : entryOf before holders signal ∈ dispositions.taken :=
        (counts.mem_iff _).mpr ⟨fun unheld => held unheld.symm, rfl⟩
      simpa [entryOf] using found _ listed
  | some entry =>
      have same : entry.signal = signal := by simpa using List.find?_some found
      have listed := (counts.mem_iff entry).mp (List.mem_of_find?_eq_some found)
      show entry.users = holders signal
      rw [listed.2, same]
      rfl

/-- The number of holders of a taken signal changes, and nothing else. -/
theorem recount (counts : Counts before holders dispositions) {place users : Nat}
    (inside : place < dispositions.taken.length)
    (here : dispositions.taken[place] = entryOf before holders signal)
    (held : holders signal ≠ 0) (positive : users ≠ 0) :
    Counts before (Function.update holders signal users)
      { dispositions with
        taken := dispositions.taken.set place ⟨signal, users, before signal⟩ } := by
  have perm := List.set_perm_cons_eraseIdx inside ⟨signal, users, before signal⟩
  have signal_here : dispositions.taken[place].signal = signal := by rw [here]; rfl
  constructor
  · apply Distinct.perm _ perm
    apply List.nodup_cons.mpr
    refine ⟨?_, counts.distinct.eraseIdx place⟩
    simp only [List.mem_map, not_exists, not_and]
    intro entry mem same
    exact ((counts.distinct.mem_eraseIdx_iff inside).mp mem).2 (same.trans signal_here.symm)
  · intro entry
    rw [perm.mem_iff, List.mem_cons, counts.distinct.mem_eraseIdx_iff inside, signal_here,
      counts.mem_iff]
    by_cases same : entry.signal = signal
    · simp [same, positive, entryOf]
    · simp only [entryOf, Function.update_of_ne same]
      constructor
      · rintro (rfl | ⟨listed, -⟩)
        · exact absurd rfl same
        · exact listed
      · exact fun listed => .inr ⟨listed, same⟩
  · intro other
    rw [counts.handler]
    by_cases same : other = signal
    · subst same
      simp [held, positive]
    · rw [Function.update_of_ne same]

/-- One more guard holds a signal. -/
theorem acquire (counts : Counts before holders dispositions) {accepted : Bool}
    {taken : Dispositions} (acquired : dispositions.acquire accepted signal = some taken) :
    Counts before (Function.update holders signal (holders signal + 1)) taken := by
  rw [Dispositions.acquire] at acquired
  split at acquired
  case h_1 place found =>
    rcases counts.of_place? found with ⟨held, inside, here⟩
    rw [Option.some.injEq] at acquired
    subst acquired
    rw [List.modify_eq_set_getElem?, List.getElem?_eq_getElem inside, here]
    exact counts.recount inside here held (Nat.succ_ne_zero _)
  case h_2 unlisted =>
    have unheld := counts.place?_eq_none_iff.mp unlisted
    split at acquired
    case isFalse => cases acquired
    case isTrue =>
      rw [Option.some.injEq] at acquired
      subst acquired
      have untaken : ∀ entry ∈ dispositions.taken, entry.signal ≠ signal := by
        rintro entry mem rfl
        exact ((counts.mem_iff entry).mp mem).1 unheld
      have saved : dispositions.handler signal = before signal := by
        rw [counts.handler, if_pos unheld]
      constructor
      · show ((dispositions.taken ++ [_]).map _).Nodup
        rw [List.map_append, List.map_singleton, List.nodup_append]
        refine ⟨counts.distinct, List.nodup_singleton _, ?_⟩
        simpa using untaken
      · intro entry
        rw [List.mem_append, List.mem_singleton, counts.mem_iff, saved]
        by_cases same : entry.signal = signal
        · simp [same, unheld, entryOf]
        · simp only [entryOf, Function.update_of_ne same]
          constructor
          · rintro (listed | rfl)
            · exact listed
            · exact absurd rfl same
          · exact .inl
      · intro other
        by_cases same : other = signal
        · subst same
          simp [setHandler]
        · simp [setHandler, same, counts.handler]

/-- One guard fewer holds a signal. -/
theorem release (counts : Counts before holders dispositions) (held : holders signal ≠ 0) :
    Counts before (Function.update holders signal (holders signal - 1))
      (dispositions.release signal) := by
  rw [Dispositions.release]
  cases found : dispositions.place? signal with
  | none => exact absurd (counts.place?_eq_none_iff.mp found) held
  | some place =>
      rcases counts.of_place? found with ⟨-, inside, here⟩
      simp only [List.getElem?_eq_getElem inside, here, entryOf]
      split
      case isTrue others => exact counts.recount inside here held (Nat.ne_of_gt others)
      case isFalse last =>
        have unheld : holders signal - 1 = 0 := by omega
        have signal_here : dispositions.taken[place].signal = signal := by rw [here]; rfl
        constructor
        · exact (counts.distinct.eraseIdx place).perm (swapRemove_perm inside)
        · intro entry
          rw [(swapRemove_perm inside).mem_iff, counts.distinct.mem_eraseIdx_iff inside,
            signal_here, counts.mem_iff]
          by_cases same : entry.signal = signal
          · simp [same, unheld]
          · simp [same, entryOf]
        · intro other
          by_cases same : other = signal
          · subst same
            simp [setHandler, unheld]
          · simp [setHandler, same, counts.handler]

/-- The signals of a guard are given back one after the other. -/
theorem releaseAll (base : Signal → Nat) (signals : List Signal) :
    ∀ {dispositions : Dispositions},
      Counts before (fun signal => base signal + signals.count signal) dispositions →
        Counts before base (signals.foldl Dispositions.release dispositions) := by
  induction signals with
  | nil => exact fun counts => counts
  | cons signal rest induction =>
      intro dispositions counts
      apply induction
      have held : base signal + (signal :: rest).count signal ≠ 0 := by simp
      apply (counts.release held).congr
      intro other
      by_cases same : other = signal
      · subst same
        simp
      · rw [Function.update_of_ne same, List.count_cons_of_ne (Ne.symm same)]

theorem drop (base : Signal → Nat) (guard : SignalGuard)
    (counts : Counts before (fun signal => base signal + guard.signals.count signal)
      dispositions) :
    Counts before base (dispositions.drop guard) := by
  apply releaseAll
  apply counts.congr
  intro signal
  rw [List.count_reverse]

/--
A guard that gets all it asks for holds each signal it asked for; one that is refused a signal
leaves no trace.
-/
theorem takeAll (base : Signal → Nat) (accepts : Signal → Bool) (signals : List Signal) :
    ∀ {dispositions : Dispositions} (guard : SignalGuard),
      Counts before (fun signal => base signal + guard.signals.count signal) dispositions →
        match Dispositions.takeAll accepts dispositions guard signals with
        | (some complete, after) =>
            complete.signals = guard.signals ++ signals ∧
              Counts before (fun signal => base signal + complete.signals.count signal) after
        | (none, after) => Counts before base after := by
  induction signals with
  | nil =>
      intro dispositions guard counts
      exact ⟨(List.append_nil _).symm, counts⟩
  | cons signal rest induction =>
      intro dispositions guard counts
      rw [Dispositions.takeAll]
      cases acquired : dispositions.acquire (accepts signal) signal with
      | none => exact counts.drop base guard
      | some taken =>
          have grown : Counts before
              (fun other => base other + (guard.signals ++ [signal]).count other) taken := by
            apply (counts.acquire acquired).congr
            intro other
            by_cases same : other = signal
            · subst same
              simp [Nat.add_assoc]
            · simp [Function.update_of_ne same, List.count_append, Ne.symm same]
          have complete := induction ⟨guard.signals ++ [signal]⟩ grown
          simpa only [List.append_assoc, List.singleton_append] using complete

end Counts

/-- A guard that is refused nothing gets all it asks for. -/
theorem takeAll_of_accepted (accepts : Signal → Bool) (signals : List Signal)
    (accepted : ∀ signal ∈ signals, accepts signal = true) (dispositions : Dispositions)
    (guard : SignalGuard) :
    (takeAll accepts dispositions guard signals).1 = some ⟨guard.signals ++ signals⟩ := by
  induction signals generalizing dispositions guard with
  | nil => simp [takeAll]
  | cons signal rest induction =>
      have given : ∃ taken, dispositions.acquire (accepts signal) signal = some taken := by
        rw [acquire, accepted signal List.mem_cons_self]
        split <;> exact ⟨_, rfl⟩
      rcases given with ⟨taken, acquired⟩
      have others := induction (fun other mem => accepted other (List.mem_cons_of_mem _ mem))
        taken ⟨guard.signals ++ [signal]⟩
      rw [takeAll, acquired]
      simpa only [List.append_assoc, List.singleton_append] using others

theorem wanted_nodup (nativeUnwinding dumpOnQuit : Bool) :
    (wanted nativeUnwinding dumpOnQuit).Nodup := by
  cases nativeUnwinding <;> cases dumpOnQuit <;> decide

theorem profile_mem_wanted_iff (nativeUnwinding dumpOnQuit : Bool) :
    .profile ∈ wanted nativeUnwinding dumpOnQuit ↔ nativeUnwinding = true := by
  cases nativeUnwinding <;> cases dumpOnQuit <;> decide

theorem quit_mem_wanted_iff (nativeUnwinding dumpOnQuit : Bool) :
    .quit ∈ wanted nativeUnwinding dumpOnQuit ↔ dumpOnQuit = true := by
  cases nativeUnwinding <;> cases dumpOnQuit <;> decide

end Dispositions

/-! ## Guards that come and go -/

/-- A host with the guards that are alive in it. -/
structure GuardedHost where
  dispositions : Dispositions
  /-- In the order of their installation. -/
  live : List SignalGuard := []

/-- What may be done with guards. -/
inductive GuardStep where
  /-- Installs a guard for the signals it asks for; `accepts` are the answers of the system. -/
  | install (accepts : Signal → Bool) (nativeUnwinding dumpOnQuit : Bool)
  /-- Drops the guard at a place among the live ones, if there is one. -/
  | drop (place : Nat)

namespace GuardedHost

/-- A host whose signals are answered by `before`, and by no guard yet. -/
def untouched (before : Signal → SignalHandler) : GuardedHost :=
  ⟨⟨before, []⟩, []⟩

/-- The number of live guards that hold a signal. -/
def holders (host : GuardedHost) (signal : Signal) : Nat :=
  host.live.countP (signal ∈ ·.signals)

/-- Does one thing with the guards. -/
def step (host : GuardedHost) : GuardStep → GuardedHost
  | .install accepts nativeUnwinding dumpOnQuit =>
      match host.dispositions.install accepts nativeUnwinding dumpOnQuit with
      | (some guard, after) => ⟨after, host.live ++ [guard]⟩
      | (none, after) => ⟨after, host.live⟩
  | .drop place =>
      match host.live[place]? with
      | some guard => ⟨host.dispositions.drop guard, host.live.eraseIdx place⟩
      | none => host

/-- Does one thing after the other. -/
def run (host : GuardedHost) (steps : List GuardStep) : GuardedHost :=
  steps.foldl step host

/-- The dispositions count the live guards, and no guard holds a signal twice. -/
structure IsCounted (before : Signal → SignalHandler) (host : GuardedHost) : Prop where
  counts : host.dispositions.Counts before host.holders
  nodup : ∀ guard ∈ host.live, guard.signals.Nodup

variable {before : Signal → SignalHandler} {host : GuardedHost}

theorem isCounted_untouched (before : Signal → SignalHandler) :
    (untouched before).IsCounted before := by
  constructor
  · constructor
    · exact List.nodup_nil
    · simp [untouched, holders]
    · simp [untouched, holders]
  · simp [untouched]

theorem countP_concat_holding {live : List SignalGuard} {guard : SignalGuard} {signal : Signal}
    (nodup : guard.signals.Nodup) :
    (live ++ [guard]).countP (signal ∈ ·.signals) =
      live.countP (signal ∈ ·.signals) + guard.signals.count signal := by
  rw [List.countP_append, nodup.count]
  simp

theorem IsCounted.step (counted : host.IsCounted before) (step : GuardStep) :
    (host.step step).IsCounted before := by
  cases step with
  | install accepts nativeUnwinding dumpOnQuit =>
      have taken := Dispositions.Counts.takeAll host.holders accepts
        (Dispositions.wanted nativeUnwinding dumpOnQuit) {} counted.counts
      rw [GuardedHost.step, Dispositions.install]
      split at taken
      case h_1 guard after _ =>
        have nodup : guard.signals.Nodup := by
          rw [taken.1]
          exact Dispositions.wanted_nodup nativeUnwinding dumpOnQuit
        constructor
        · apply taken.2.congr
          exact fun signal => countP_concat_holding nodup
        · intro other mem
          rcases List.mem_append.mp mem with mem | mem
          · exact counted.nodup other mem
          · exact List.mem_singleton.mp mem ▸ nodup
      case h_2 after _ =>
        exact ⟨taken, counted.nodup⟩
  | drop place =>
      rw [GuardedHost.step]
      cases found : host.live[place]? with
      | none => exact counted
      | some guard =>
          rcases List.getElem?_eq_some_iff.mp found with ⟨inside, rfl⟩
          have nodup := counted.nodup _ (List.getElem_mem inside)
          constructor
          · apply Dispositions.Counts.drop
            apply counted.counts.congr
            intro signal
            show (host.live.eraseIdx place).countP _ + _ = host.live.countP _
            rw [← countP_concat_holding nodup]
            apply List.Perm.countP_eq
            exact (List.perm_append_singleton _ _).trans (List.getElem_cons_eraseIdx_perm inside)
          · intro other mem
            exact counted.nodup other (List.mem_of_mem_eraseIdx mem)

theorem IsCounted.run (counted : host.IsCounted before) (steps : List GuardStep) :
    (host.run steps).IsCounted before := by
  induction steps generalizing host with
  | nil => exact counted
  | cons step rest induction => exact induction (counted.step step)

/-- An installation that the system accepts adds a guard of the signals asked for. -/
theorem live_of_accepted (host : GuardedHost) (nativeUnwinding dumpOnQuit : Bool) :
    ∃ guard,
      (host.step (.install (fun _ => true) nativeUnwinding dumpOnQuit)).live =
        host.live ++ [guard] ∧
      (.profile ∈ guard.signals ↔ nativeUnwinding = true) ∧
      (.quit ∈ guard.signals ↔ dumpOnQuit = true) := by
  have given := Dispositions.takeAll_of_accepted (fun _ => true)
    (Dispositions.wanted nativeUnwinding dumpOnQuit) (fun _ _ => rfl) host.dispositions {}
  refine ⟨⟨Dispositions.wanted nativeUnwinding dumpOnQuit⟩, ?_,
    Dispositions.profile_mem_wanted_iff _ _, Dispositions.quit_mem_wanted_iff _ _⟩
  rw [step, Dispositions.install]
  split
  case h_1 guard after installed =>
    rw [installed, Option.some.injEq] at given
    rw [given]
    rfl
  case h_2 after refused =>
    rw [refused] at given
    cases given

/--
Whatever guards were installed and dropped, in whatever order: a signal that live guards hold is
answered by the session's handler and has their number as its users, and a signal that none holds is
answered as it was before the first of them.  An installation that is not refused goes on to add a
guard, which holds the signal for native stacks exactly if native unwinding was asked for, and the
signal for dumps exactly if dumps on it were.
-/
theorem run_restores (before : Signal → SignalHandler) (steps : List GuardStep) :
    let host := (untouched before).run steps
    (∀ signal,
      (host.dispositions.handler signal =
        if host.holders signal = 0 then before signal else signal.handler) ∧
      host.dispositions.users signal = host.holders signal) ∧
    (host.live = [] → host.dispositions.handler = before) ∧
    ∀ nativeUnwinding dumpOnQuit, ∃ guard,
      (host.step (.install (fun _ => true) nativeUnwinding dumpOnQuit)).live =
        host.live ++ [guard] ∧
      (.profile ∈ guard.signals ↔ nativeUnwinding = true) ∧
      (.quit ∈ guard.signals ↔ dumpOnQuit = true) := by
  intro host
  have counted : host.IsCounted before := (isCounted_untouched before).run steps
  refine ⟨?_, ?_, host.live_of_accepted⟩
  · exact fun signal => ⟨counted.counts.handler signal, counted.counts.users_eq signal⟩
  · intro gone
    ext1 signal
    rw [counted.counts.handler, if_pos]
    simp [holders, gone]

/-- What answers the signals of a host that has handlers of its own. -/
def ownHandlers : Signal → SignalHandler
  | .profile => .host 1
  | .quit => .host 2

/-- Two guards overlap, and the first of them is dropped first. -/
def overlapping : List GuardStep :=
  [.install (fun _ => true) true false, .install (fun _ => true) true true, .drop 0]

/-- While one of the guards is left it holds both signals; behind it the host answers them again. -/
theorem run_restores_overlapping :
    let held := (untouched ownHandlers).run overlapping
    let left := (untouched ownHandlers).run (overlapping ++ [.drop 0])
    held.dispositions.handler .profile = .stackRecorder ∧ held.dispositions.users .profile = 1 ∧
      held.dispositions.handler .quit = .dumpRequest ∧ held.dispositions.users .quit = 1 ∧
      left.dispositions.handler = ownHandlers := by
  intro held left
  have answers := (run_restores ownHandlers overlapping).1
  have profile : held.holders .profile = 1 := by decide
  have quit : held.holders .quit = 1 := by decide
  refine ⟨?_, (answers .profile).2.trans profile, ?_, (answers .quit).2.trans quit, ?_⟩
  · exact (answers .profile).1.trans (if_neg (by decide))
  · exact (answers .quit).1.trans (if_neg (by decide))
  · exact (run_restores ownHandlers (overlapping ++ [.drop 0])).2.1 (by decide)

end GuardedHost

end StackSampler
