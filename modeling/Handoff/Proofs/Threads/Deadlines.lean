import Handoff.Proofs.Threads.MutexService

/-!
# Attempts with a deadline

What an onlooker writes down about one call that takes the sleeping lock, from its first access to
the one by which it returns (`Mutex.CallLog`): the word before and after each of its accesses, its
readings of the clock, for how long it was ready to sleep each time, and what it has returned. Other
threads move in between as they like, and change the word as they like; the log does not show them.

Such a log is what a caller with a deadline expects (`Mutex.CallLog.KeepsTo`,
`Mutex.attempt_keeps_to_deadline`): the answer says whether the call owns the lock, the call gives
up only after the deadline and has then announced itself at the most, and it is ready to sleep until
the deadline and no longer.

While the call is under way, each reading was before the deadline, and all but the last one have
been followed by a sleep for the time that was left; the last one has not if the thread is about to
announce itself or to go to sleep (`Mutex.CallLog.Underway`). It takes one lemma for each access
of the call to see that, and none for the accesses of other threads, since nothing is said of the
word between two accesses of the call.
-/

namespace Handoff

/-- A reading of the clock that is not past a deadline leaves exactly the remaining time. -/
theorem Instant.remaining_of_not_past {now deadline : Instant} (h : now.isPast deadline = false) :
    now.nanoseconds < deadline.nanoseconds ∧
      now.nanoseconds + (now.remaining deadline).nanoseconds = deadline.nanoseconds := by
  have hlt := Nat.lt_of_not_le (of_decide_eq_false h)
  exact ⟨hlt, Nat.add_sub_cancel' (Nat.le_of_lt hlt)⟩

namespace Mutex

/-! ### The log of a call -/

/-- What the call of a thread at a point has returned, if it has. -/
def Point.answer? : Point → Option Bool
  | .holding => some true
  | .idle => some false
  | _ => none

/-- The reading of the clock that an access makes. -/
def Point.reading? : Point → Choice → Option Instant
  | .planning _, .read now | .checkingClock _, .read now => some now
  | _, _ => none

/-- For how long the thread is ready to sleep in an access by which it goes to sleep. -/
def Point.wait? : Point → Option Span
  | .settling (.limited _ left) => some left
  | _ => none

/-- A call that takes the lock, as an onlooker sees it. -/
structure CallLog where
  /-- The word before and after each access. -/
  words : List (Mutex × Mutex)
  /-- The readings of the clock. -/
  readings : List Instant
  /-- For how long the thread was ready to sleep, each time. -/
  waits : List Span
  /-- What the call has returned. -/
  answer : Option Bool
deriving Repr, DecidableEq

namespace CallLog

/-- The log before the first access. -/
def new : CallLog := ⟨[], [], [], none⟩

/-- The log after one more access. -/
def add (log : CallLog) (word : Mutex × Mutex) (reading : Option Instant) (wait : Option Span)
    (answer : Option Bool) : CallLog :=
  ⟨log.words ++ [word], log.readings ++ reading.toList, log.waits ++ wait.toList, answer⟩

/-- The log after an access of the thread from one point to another. -/
def record {ι : Type} (log : CallLog) (choice : Choice) (m : Memory ι) (p : Point)
    (after : Memory ι × Point) : CallLog :=
  log.add (m.lock, after.1.lock) (p.reading? choice) p.wait? after.2.answer?

/-- The log after a move: nothing is noted of the moves of other threads, and nothing after the
call has returned. -/
def note {ι : Type} [DecidableEq ι] (t : ι) (s : (code ι).State) (m : (code ι).Move)
    (s' : (code ι).State) (log : CallLog) : CallLog :=
  if m.1 = t ∧ log.answer = none then
    log.record m.2 s.memory (s.point t) (s'.memory, s'.point t)
  else log

/-- The log of the call that a thread has under way, after a schedule. -/
def keep {ι : Type} [DecidableEq ι] (t : ι) (s : (code ι).State)
    (schedule : List (code ι).Move) : CallLog :=
  Program.watch (note t) s new schedule

/-- The accesses that changed the word. -/
def writes (log : CallLog) : List (Mutex × Mutex) :=
  log.words.filter fun word => word.1 ≠ word.2

/-- The accesses that changed the word from "unlocked". -/
def takes (log : CallLog) : List (Mutex × Mutex) :=
  log.writes.filter fun word => word.1 = .ofState .unlocked

/-- What a call that may take the lock until a deadline does, as far as its log goes. -/
structure KeepsTo (log : CallLog) (deadline : Instant) : Prop where
  /-- The call has taken the lock exactly if one of its accesses did. -/
  taken_iff : log.answer = some true ↔ log.takes.length = 1
  /-- The access by which the call takes the lock is its last write. -/
  last_write : ∀ word ∈ log.takes, log.writes.getLast? = some word
  /-- A call that gives up has found the lock held at first. -/
  found_held : log.answer = some false → ∃ word, log.words.head? = some word ∧
    word.1 ≠ .ofState .unlocked
  /-- A call gives up upon a reading that is at or past the deadline. -/
  was_late : log.answer = some false → ∃ now, log.readings.getLast? = some now ∧
    now.isPast deadline = true
  /-- A call that gives up has announced itself at the most. -/
  announced : log.answer = some false → ∀ word ∈ log.writes,
    word = (.ofState .lockedNoWaiters, .ofState .lockedHasWaiters)
  /-- A call whose first reading is at or past the deadline writes nothing. -/
  untouched : ∀ now, log.readings.head? = some now → now.isPast deadline = true → log.writes = []
  /-- The call never unlocks. -/
  locks : ∀ word ∈ log.writes, word.2 ≠ .ofState .unlocked
  /-- Each sleep follows a reading before the deadline, and is for the time from the one to the
  other. -/
  sleeps : ∀ (i : ℕ) (wait : Span), log.waits[i]? = some wait →
    ∃ now : Instant, log.readings[i]? = some now ∧ now.nanoseconds < deadline.nanoseconds ∧
    now.nanoseconds + wait.nanoseconds = deadline.nanoseconds

section Add

variable {log : CallLog} {word : Mutex × Mutex} {reading : Option Instant} {wait : Option Span}
  {answer : Option Bool}

theorem writes_add_of_eq (h : word.1 = word.2) :
    (log.add word reading wait answer).writes = log.writes := by
  simp [add, writes, h]

theorem writes_add_of_ne (h : word.1 ≠ word.2) :
    (log.add word reading wait answer).writes = log.writes ++ [word] := by
  simp [add, writes, h]

theorem head?_words_add {first : Mutex × Mutex} (h : log.words.head? = some first) :
    (log.add word reading wait answer).words.head? = some first := by
  simp [add, h]

end Add

end CallLog

theorem Point.answer?_of_taking {p : Point} (hp : p.stage = .taking) : p.answer? = none := by
  cases p with
  | idle | holding => cases hp
  | _ => rfl

/-! ### A call under way -/

/-- The deadline of a call under way. -/
def Point.deadline? : Point → Option Instant
  | .takingUntil deadline | .checkingClock deadline => some deadline
  | .announcing (.limited deadline _) | .settling (.limited deadline _)
  | .asleep (.limited deadline _) | .seizing (.limited deadline _) => some deadline
  | _ => none

/-- Whether a call with a deadline is at its first access. -/
def Point.begins : Point → Bool
  | .takingUntil _ => true
  | _ => false

/-- The time that was left at the last reading of the clock, if the thread has not gone to sleep
since. -/
def Point.left? : Point → Option Span
  | .announcing (.limited _ left) | .settling (.limited _ left) => some left
  | _ => none

namespace CallLog

/-- The log of a call with a deadline, while its thread is at a point. -/
structure Underway (deadline : Instant) (p : Point) (log : CallLog) : Prop where
  route : p.deadline? = some deadline
  begins : p.begins = true → log.words = []
  found_held : p.begins = false → ∃ word, log.words.head? = some word ∧
    word.1 ≠ .ofState .unlocked
  announced : ∀ word ∈ log.writes,
    word = (.ofState .lockedNoWaiters, .ofState .lockedHasWaiters)
  untouched : log.readings = [] → log.writes = []
  early : ∀ now ∈ log.readings, now.isPast deadline = false
  waits : log.readings.map (·.remaining deadline) = log.waits ++ p.left?.toList

namespace Underway

variable {deadline : Instant} {p : Point} {log : CallLog}

theorem new (deadline : Instant) : Underway deadline (.takingUntil deadline) .new where
  route := rfl
  begins _ := rfl
  found_held h := absurd h.symm Bool.false_ne_true
  announced := nofun
  untouched _ := rfl
  early := nofun
  waits := rfl

theorem takes_eq_nil (h : Underway deadline p log) : log.takes = [] := by
  rw [takes, List.filter_eq_nil_iff]
  intro word hword
  rw [h.announced word hword]
  decide

theorem locks (h : Underway deadline p log) : ∀ word ∈ log.writes, word.2 ≠ .ofState .unlocked := by
  intro word hword
  rw [h.announced word hword]
  decide

theorem early_head (h : Underway deadline p log) {now : Instant}
    (hnow : log.readings.head? = some now) : now.isPast deadline = false :=
  h.early now (List.mem_of_head? hnow)

theorem sleeps (h : Underway deadline p log) (more : List Instant) {i : ℕ} {wait : Span}
    (hwait : log.waits[i]? = some wait) :
    ∃ now, (log.readings ++ more)[i]? = some now ∧ now.nanoseconds < deadline.nanoseconds ∧
      now.nanoseconds + wait.nanoseconds = deadline.nanoseconds := by
  have hi : i < log.waits.length := (List.getElem?_eq_some_iff.1 hwait).1
  have hmap : (log.readings.map (·.remaining deadline))[i]? = some wait := by
    rw [h.waits, List.getElem?_append_left hi, hwait]
  rw [List.getElem?_map, Option.map_eq_some_iff] at hmap
  obtain ⟨now, hnow, rfl⟩ := hmap
  have hlt : i < log.readings.length := (List.getElem?_eq_some_iff.1 hnow).1
  have hearly := h.early now (List.mem_of_getElem? hnow)
  exact ⟨now, (List.getElem?_append_left hlt).trans hnow, Instant.remaining_of_not_past hearly⟩

/-- As long as the call is under way, there is nothing to be said against it. -/
theorem keepsTo (h : Underway deadline p log) (hanswer : log.answer = none) :
    log.KeepsTo deadline where
  taken_iff := by
    rw [hanswer, h.takes_eq_nil]
    exact iff_of_false nofun nofun
  last_write := by
    rw [h.takes_eq_nil]
    exact nofun
  found_held h' := nomatch hanswer.symm.trans h'
  was_late h' := nomatch hanswer.symm.trans h'
  announced h' := nomatch hanswer.symm.trans h'
  untouched now hnow hpast := nomatch (h.early_head hnow).symm.trans hpast
  locks := h.locks
  sleeps i wait hwait := by
    rw [← List.append_nil log.readings]
    exact h.sleeps [] hwait

/-- The call takes the free lock. -/
theorem win (h : Underway deadline p log) {state : LockState} (hstate : state ≠ .unlocked) :
    (log.add (.ofState .unlocked, .ofState state) none none (some true)).KeepsTo deadline := by
  have hne : ofState .unlocked ≠ ofState state := by
    intro e
    exact hstate ((state_ofState state).symm.trans (congrArg Mutex.state e.symm))
  have hwrites : (log.add (.ofState .unlocked, .ofState state) none none (some true)).writes =
      log.writes ++ [(.ofState .unlocked, .ofState state)] := writes_add_of_ne hne
  have htakes : (log.add (.ofState .unlocked, .ofState state) none none (some true)).takes =
      [(.ofState .unlocked, .ofState state)] := by
    have hnone : log.writes.filter (fun word => word.1 = .ofState .unlocked) = [] := h.takes_eq_nil
    rw [takes, hwrites, List.filter_append, hnone]
    rfl
  refine ⟨?_, ?_, nofun, nofun, nofun, ?_, ?_, ?_⟩
  · rw [htakes]
    exact iff_of_true rfl rfl
  · intro word hword
    rw [htakes, List.mem_singleton] at hword
    rw [hwrites, List.getLast?_concat, hword]
  · intro now hnow hpast
    simp only [add, Option.toList_none, List.append_nil] at hnow
    exact nomatch (h.early_head hnow).symm.trans hpast
  · intro word hword
    rw [hwrites, List.mem_append, List.mem_singleton] at hword
    obtain hword | rfl := hword
    · exact h.locks word hword
    · exact hne.symm
  · intro i wait hwait
    simp only [add, Option.toList_none, List.append_nil] at hwait
    exact h.sleeps _ hwait

/-- The call gives up. -/
theorem giveUp {l : Mutex} {now : Instant} (h : Underway deadline (.checkingClock deadline) log)
    (hpast : now.isPast deadline = true) :
    (log.add (l, l) (some now) none (some false)).KeepsTo deadline := by
  obtain ⟨first, hfirst, hheld⟩ := h.found_held rfl
  have hwrites : (log.add (l, l) (some now) none (some false)).writes = log.writes :=
    writes_add_of_eq rfl
  have htakes : (log.add (l, l) (some now) none (some false)).takes = [] := by
    rw [takes, hwrites]
    exact h.takes_eq_nil
  refine ⟨?_, ?_, fun _ => ?_, fun _ => ?_, fun _ => ?_, ?_, ?_, ?_⟩
  · rw [htakes]
    exact iff_of_false nofun nofun
  · rw [htakes]
    exact nofun
  · exact ⟨first, head?_words_add hfirst, hheld⟩
  · exact ⟨now, List.getLast?_concat, hpast⟩
  · rw [hwrites]
    exact h.announced
  · intro first hfirst hlate
    rw [hwrites]
    cases hreadings : log.readings with
    | nil => exact h.untouched hreadings
    | cons early rest =>
      -- an earlier reading was before the deadline
      simp only [add, hreadings, List.cons_append, List.head?_cons, Option.some.injEq] at hfirst
      have hearly := h.early early (hreadings ▸ List.mem_cons_self)
      rw [hfirst, hlate] at hearly
      contradiction
  · rw [hwrites]
    exact h.locks
  · intro i wait hwait
    simp only [add, Option.toList_none, List.append_nil] at hwait
    exact h.sleeps _ hwait

/-- The call goes on without a reading of the clock. -/
theorem goOn (h : Underway deadline p log) {p' : Point} {word : Mutex × Mutex} {wait : Option Span}
    (hroute : p'.deadline? = some deadline) (hp' : p'.begins = false)
    (hheld : p.begins = false ∨ word.1 ≠ .ofState .unlocked)
    (hwrites : word.1 = word.2 ∨ p.left? ≠ none ∧
      word = (.ofState .lockedNoWaiters, .ofState .lockedHasWaiters))
    (hwait : p.left?.toList = wait.toList ++ p'.left?.toList) :
    Underway deadline p' (log.add word none wait none) := by
  have hreadings : log.readings = [] → p.left? = none := by
    intro hnil
    have hnone := h.waits
    rw [hnil, List.map_nil] at hnone
    exact Option.toList_eq_nil_iff.1 (List.append_eq_nil_iff.1 hnone.symm).2
  refine ⟨hroute, fun hbegins => ?_, fun _ => ?_, ?_, ?_, ?_, ?_⟩
  · rw [hp'] at hbegins
    contradiction
  · cases hp : p.begins with
    | true =>
      refine ⟨word, ?_, hheld.resolve_left fun h => Bool.false_ne_true (h.symm.trans hp)⟩
      simp only [add, h.begins hp, List.nil_append, List.head?_cons]
    | false =>
      obtain ⟨first, hfirst, hne⟩ := h.found_held hp
      exact ⟨first, head?_words_add hfirst, hne⟩
  · obtain hsame | ⟨-, rfl⟩ := hwrites
    · rw [writes_add_of_eq hsame]
      exact h.announced
    · rw [writes_add_of_ne (by decide)]
      intro other hother
      rw [List.mem_append, List.mem_singleton] at hother
      exact hother.elim (h.announced other) id
  · intro hnil
    simp only [add, Option.toList_none, List.append_nil] at hnil
    obtain hsame | ⟨hleft, -⟩ := hwrites
    · rw [writes_add_of_eq hsame]
      exact h.untouched hnil
    · exact absurd (hreadings hnil) hleft
  · simp only [add, Option.toList_none, List.append_nil]
    exact h.early
  · simp only [add, Option.toList_none, List.append_nil]
    rw [h.waits, hwait, List.append_assoc]

/-- The call reads the clock before the deadline. -/
theorem read {now : Instant} (h : Underway deadline (.checkingClock deadline) log) (l : Mutex)
    (hearly : now.isPast deadline = false) :
    Underway deadline (.announcing (.limited deadline (now.remaining deadline)))
      (log.add (l, l) (some now) none none) := by
  obtain ⟨first, hfirst, hheld⟩ := h.found_held rfl
  have hwrites : (log.add (l, l) (some now) none none).writes = log.writes := writes_add_of_eq rfl
  refine ⟨rfl, fun h => absurd h Bool.false_ne_true,
    fun _ => ⟨first, head?_words_add hfirst, hheld⟩, ?_, ?_, ?_, ?_⟩
  · rw [hwrites]
    exact h.announced
  · intro hnil
    simp [add] at hnil
  · intro other hother
    simp only [add, Option.toList_some, List.mem_append, List.mem_singleton] at hother
    obtain hother | rfl := hother
    · exact h.early other hother
    · exact hearly
  · have hwaits := h.waits
    simp only [Point.left?, Option.toList_none, List.append_nil] at hwaits
    simp only [add, Point.left?, Option.toList_some, Option.toList_none, List.append_nil,
      List.map_append, List.map_cons, List.map_nil, hwaits]

end Underway

/-- A call is under way, and something holds of its log and of the point of its thread, or it has
returned, and something holds of its log. -/
def Stands (way : Point → CallLog → Prop) (done : CallLog → Prop) (p : Point) (log : CallLog) :
    Prop :=
  log.answer = none ∧ way p log ∨ log.answer.isSome = true ∧ done log

end CallLog

/-! ### Accesses of a call -/

section Access

variable {ι : Type} {deadline : Instant} {p : Point} {log : CallLog}

/-- A swap by which the call tries to take the lock. -/
theorem CallLog.Underway.attempt (h : log.Underway deadline p) {choice : Choice} (m : Memory ι)
    {state : LockState} (hstate : state ≠ .unlocked) (hp : p.left? = none) (hwait : p.wait? = none)
    (hreading : p.reading? choice = none) :
    let after := m.after (m.lock.transition .unlocked state) .holding (.checkingClock deadline)
    (log.record choice m p after).Stands (Underway deadline) (KeepsTo · deadline) after.2 := by
  intro after
  rw [record, hwait, hreading]
  unfold after
  obtain ⟨hfree, hswap⟩ | ⟨hheld, hswap⟩ := m.lock.transition_eq_or .unlocked state
  · rw [hswap, hfree]
    exact .inr ⟨rfl, h.win hstate⟩
  · rw [hswap]
    refine .inl ⟨rfl, h.goOn rfl rfl (.inr hheld) (.inl rfl) ?_⟩
    rw [hp]
    rfl

/-- Every access of a call with a deadline. -/
theorem CallLog.Underway.access [DecidableEq ι] (h : log.Underway deadline p) (t : ι)
    (choice : Choice) (m : Memory ι) :
    (log.record choice m p (access t choice m p)).Stands (Underway deadline) (KeepsTo · deadline)
      (access t choice m p).2 := by
  have hroute := h.route
  cases p with
  | takingUntil _ =>
    obtain rfl := (Option.some.inj hroute).symm
    exact h.attempt m (by decide) rfl rfl rfl
  | checkingClock _ =>
    obtain rfl := (Option.some.inj hroute).symm
    cases choice with
    | read now =>
      rw [Mutex.access]
      by_cases hpast : now.isPast deadline = true
      · rw [if_pos hpast]
        exact .inr ⟨rfl, h.giveUp hpast⟩
      · rw [if_neg hpast]
        exact .inl ⟨rfl, h.read m.lock (Bool.eq_false_iff.2 hpast)⟩
    | _ => exact .inl ⟨rfl, h.goOn rfl rfl (.inl rfl) (.inl rfl) rfl⟩
  | announcing patience =>
    cases patience with
    | unlimited => cases hroute
    | limited _ left =>
      obtain rfl := (Option.some.inj hroute).symm
      refine .inl ⟨rfl, h.goOn rfl rfl (.inl rfl) ?_ rfl⟩
      rw [Mutex.access, announce]
      obtain ⟨hfree, hswap⟩ | ⟨-, hswap⟩ :=
        m.lock.transition_eq_or .lockedNoWaiters .lockedHasWaiters
      · rw [hswap, hfree]
        exact .inr ⟨Option.some_ne_none left, rfl⟩
      · rw [hswap]
        exact .inl rfl
  | settling patience =>
    cases patience with
    | unlimited => cases hroute
    | limited _ left =>
      obtain rfl := (Option.some.inj hroute).symm
      rw [Mutex.access]
      split
      · exact .inl ⟨rfl, h.goOn rfl rfl (.inl rfl) (.inl rfl) rfl⟩
      · exact .inl ⟨rfl, h.goOn rfl rfl (.inl rfl) (.inl rfl) rfl⟩
  | asleep patience =>
    cases patience with
    | unlimited => cases hroute
    | limited _ left =>
      obtain rfl := (Option.some.inj hroute).symm
      rw [Mutex.access]
      split
      · exact .inl ⟨rfl, h.goOn rfl rfl (.inl rfl) (.inl rfl) rfl⟩
      · split
        · exact .inl ⟨rfl, h.goOn rfl rfl (.inl rfl) (.inl rfl) rfl⟩
        · exact .inl ⟨rfl, h.goOn rfl rfl (.inl rfl) (.inl rfl) rfl⟩
  | seizing patience =>
    cases patience with
    | unlimited => cases hroute
    | limited _ left =>
      obtain rfl := (Option.some.inj hroute).symm
      exact h.attempt m (by decide) rfl rfl rfl
  | _ => cases hroute

/-- The log of a call that takes the lock within a span of time, while its thread is at a point. If
the clock ends before the span does, the thread goes on as if it had no deadline. -/
structure CallLog.Plans (span : Span) (p : Point) (log : CallLog) : Prop where
  begins : log.readings = [] → p = .planning span
  endless : ∀ now, log.readings.head? = some now → now.later? span = none → p.stage = .taking

/-- Where a call that takes the lock within a span of time gets to, if the clock ends before. -/
theorem CallLog.Plans.taking_or_holding [DecidableEq ι] {span : Span} (h : log.Plans span p) (t : ι)
    (choice : Choice) (m : Memory ι) {now : Instant} (hends : now.later? span = none)
    (hnow : (log.record choice m p (access t choice m p)).readings.head? = some now) :
    (access t choice m p).2.stage = .taking ∨ (access t choice m p).2 = .holding := by
  simp only [record, add] at hnow
  cases hreadings : log.readings with
  | nil =>
    obtain rfl := h.begins hreadings
    rw [hreadings] at hnow
    cases choice with
    | read now' =>
      obtain rfl := Option.some.inj hnow
      rw [Mutex.access, hends]
      exact .inl rfl
    | _ => cases hnow
  | cons first rest =>
    rw [hreadings] at hnow
    obtain rfl := Option.some.inj hnow
    have hstage := h.endless first (congrArg List.head? hreadings) hends
    have hnext := next_access_of_taking t choice m hstage
    rw [hstage] at hnext
    generalize hstage' : (access t choice m p).2.stage = stage at hnext
    cases hnext with
    | stay => exact .inl rfl
    | enter => exact .inr (Point.stage_eq_owning_iff.1 hstage')

/-- Every access of a call that takes the lock within a span of time. -/
theorem CallLog.Plans.access [DecidableEq ι] {span : Span} (h : log.Plans span p) (t : ι)
    (choice : Choice) (m : Memory ι) :
    (log.record choice m p (access t choice m p)).Stands (Plans span)
      (fun log => ∀ now, log.readings.head? = some now → now.later? span = none →
        log.answer = some true) (access t choice m p).2 := by
  cases hanswer : (Mutex.access t choice m p).2.answer? with
  | none =>
    refine .inl ⟨hanswer, fun hnil => ?_, fun now hnow hends => ?_⟩
    · obtain ⟨hreadings, hreading⟩ := List.append_eq_nil_iff.1 hnil
      obtain rfl := h.begins hreadings
      cases choice with
      | read now => cases hreading
      | _ => rfl
    · refine (h.taking_or_holding t choice m hends hnow).resolve_right fun hp => ?_
      rw [hp] at hanswer
      exact nomatch hanswer
  | some answer =>
    refine .inr ⟨Option.isSome_of_mem hanswer, fun now hnow hends => ?_⟩
    obtain hstage | hp := h.taking_or_holding t choice m hends hnow
    · exact nomatch hanswer.symm.trans (Point.answer?_of_taking hstage)
    · exact congrArg Point.answer? hp

end Access

/-! ### Every schedule -/

section Run

variable {ι : Type} [DecidableEq ι] {s : (code ι).State} {t : ι} {log : CallLog}

namespace CallLog

/-- The log does not see the moves of other threads. -/
theorem note_of_ne {m : (code ι).Move} (s' : (code ι).State) (hm : m.1 ≠ t) :
    log.note t s m s' = log := if_neg fun h => hm h.1

/-- The log is complete when the call returns. -/
theorem note_of_answer (m : (code ι).Move) (s' : (code ι).State) (h : log.answer.isSome = true) :
    log.note t s m s' = log := if_neg fun h' => Option.isSome_iff_ne_none.1 h h'.2

theorem note_self (choice : (code ι).Choice) (h : log.answer = none) :
    log.note t s (t, choice) (Program.move s (t, choice)) =
      log.record choice s.memory (s.point t) (access t choice s.memory (s.point t)) := by
  rw [note, if_pos ⟨rfl, h⟩, Program.move_memory, Program.move_point_self]
  rfl

/-- What each access of a call keeps, a schedule keeps, since the moves of other threads do not
matter. -/
theorem stands_keep {way : Point → CallLog → Prop} {done : CallLog → Prop}
    (haccess : ∀ {p log}, way p log → ∀ choice (m : Memory ι),
      (log.record choice m p (access t choice m p)).Stands way done (access t choice m p).2)
    (hs : way (s.point t) .new) (schedule : List (code ι).Move) :
    (keep t s schedule).Stands way done ((Program.run s schedule).point t) := by
  refine Program.watch_of_step
    (I := fun (s : (code ι).State) log => Stands way done (s.point t) log)
    ?_ (.inl ⟨rfl, hs⟩) schedule
  rintro s ⟨u, choice⟩ log (⟨hanswer, hway⟩ | ⟨hanswer, hdone⟩)
  · rcases eq_or_ne u t with rfl | hne
    · rw [note_self choice hanswer, Program.move_point_self]
      exact haccess hway choice s.memory
    · rw [note_of_ne _ hne, Program.move_point_of_ne s hne.symm]
      exact .inl ⟨hanswer, hway⟩
  · rw [note_of_answer _ _ hanswer]
    exact .inr ⟨hanswer, hdone⟩

end CallLog

/-- **An attempt keeps to its deadline.** Whatever state a call with a deadline begins in, whatever
the clock reads, however the sleeps of the call end, and whatever the other threads do between its
accesses:

* The call takes the lock exactly if one of its own accesses changes the word from "unlocked", which
  is then its last write.
* It gives up only if its first access has found the lock held and the last reading of the clock is
  at or past the deadline. It has then at the most announced a waiting thread, and has not written
  the word at all if the first reading was as late.
* It never unlocks, and each of its sleeps is for exactly the time from the last reading, which is
  before the deadline, to the deadline.

A call with a span of time that goes beyond the end of the clock does not give up. -/
theorem attempt_keeps_to_deadline (s : (code ι).State) (t : ι) (schedule : List (code ι).Move) :
    (∀ deadline, s.point t = .takingUntil deadline →
        (CallLog.keep t s schedule).KeepsTo deadline) ∧
      (∀ span now, s.point t = .planning span →
        (CallLog.keep t s schedule).readings.head? = some now → now.later? span = none →
        (CallLog.keep t s schedule).answer ≠ some false) := by
  constructor
  · intro deadline hpoint
    have hbegins : CallLog.new.Underway deadline (s.point t) := by
      rw [hpoint]
      exact .new deadline
    obtain ⟨hanswer, hway⟩ | ⟨-, hdone⟩ :=
      CallLog.stands_keep (fun hway choice m => hway.access t choice m) hbegins schedule
    · exact hway.keepsTo hanswer
    · exact hdone
  · intro span now hpoint hnow hends
    have hbegins : CallLog.new.Plans span (s.point t) := ⟨fun _ => hpoint, nofun⟩
    obtain ⟨hanswer, -⟩ | ⟨-, hdone⟩ :=
      CallLog.stands_keep (fun hway choice m => hway.access t choice m) hbegins schedule
    · rw [hanswer]
      exact nofun
    · rw [hdone now hnow hends]
      decide

/-- An attempt announces itself, sleeps for the three units of time that are left at the first
reading, and gives up. An attempt for the longest span goes on instead, and takes the lock when
it is given back. -/
theorem attempt_keeps_to_deadline_three :
    let holds : List (code Nat).Move := [(1, .tryLock), (1, .proceed)]
    let timed : (code Nat).State :=
      Program.run (Program.start (code Nat).toProgram) (holds ++ [(0, .tryLockUntil ⟨5⟩)])
    let log := CallLog.keep 0 timed [(0, .proceed), (0, .read ⟨2⟩), (0, .proceed), (0, .proceed),
      (0, .wakeUp), (0, .proceed), (0, .read ⟨7⟩)]
    let planning := Program.run (Program.start (code Nat).toProgram)
      (holds ++ [(0, .tryLockFor .longest)])
    let log' := CallLog.keep 0 planning [(0, .read .zero), (0, .proceed), (1, .unlock),
      (1, .proceed), (1, .proceed), (0, .proceed), (0, .proceed)]
    (timed.point 0 = .takingUntil ⟨5⟩ ∧ log.answer = some false ∧ log.waits = [⟨3⟩] ∧
        ∀ word ∈ log.writes, word = (.ofState .lockedNoWaiters, .ofState .lockedHasWaiters)) ∧
      (planning.point 0 = .planning .longest ∧ Instant.zero.later? .longest = none ∧
        log'.answer = some true ∧ log'.answer ≠ some false) := by
  intro holds timed log planning log'
  obtain ⟨htimed, -⟩ := attempt_keeps_to_deadline timed 0 [(0, .proceed), (0, .read ⟨2⟩),
    (0, .proceed), (0, .proceed), (0, .wakeUp), (0, .proceed), (0, .read ⟨7⟩)]
  obtain ⟨-, hplanning⟩ := attempt_keeps_to_deadline planning 0 [(0, .read .zero), (0, .proceed),
    (1, .unlock), (1, .proceed), (1, .proceed), (0, .proceed), (0, .proceed)]
  have hanswer : log.answer = some false := by decide
  have hends : Instant.zero.later? .longest = none := by decide
  exact ⟨⟨rfl, hanswer, by decide, (htimed ⟨5⟩ rfl).announced hanswer⟩, rfl, hends, by decide,
    hplanning .longest .zero rfl rfl hends⟩

end Run

end Mutex

end Handoff
