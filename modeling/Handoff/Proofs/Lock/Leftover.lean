import Handoff.Proofs.Lock.History

/-!
# What a timed-out attempt leaves behind

An attempt on a held lock that gives up leaves nothing but its announcement, and not even that if it
is too late for a round. So the lock stands as without the attempt, except that it may have been
announced that somebody waits (`Standing.Leftover`). Until the next release the word may say "has
waiters" for that reason alone, and the first thread that starts to wait then does not spin; it would
have announced itself anyway. A release hands the lock on as before, and with it the announcement is
forgotten (`Standing.echo_step`). Only a thread with a deadline is not started at all if somebody
has announced itself before.

Two runs without such threads that differ in attempts only are therefore the same, apart from what is
seen of the announcement up to the next release (`Standing.Confined`,
`Mutex.timed_out_attempts_leave_announcement`).
-/

namespace Handoff

variable {ι : Type} {m : Manner}

/-- Whether a thread is started that waits until a deadline. -/
def SessionStep.isTimed : SessionStep ι → Bool
  | .spawnFor _ span start => (start.later? span).isSome
  | _ => false

/-- Whether an attempt for a span of time has given up in a step, after a while or at once. -/
def SessionStep.timesOut : SessionStep ι → SessionAnswer ι → Bool
  | .tryLockFor _ _, .got false => true
  | _, _ => false

namespace SessionAnswer

/-- Whether a step has given the lock back, or a thread has started to wait in it. -/
def settles : SessionAnswer ι → Bool
  | .waiting | .handed _ | .unwound _ => true
  | _ => false

theorem settles_eq_false_iff {answer : SessionAnswer ι} :
    answer.settles = false ↔ answer.next? = none ∧ answer ≠ .waiting := by
  cases answer <;> simp [settles, next?]

end SessionAnswer

/-- An attempt that has given up has not taken the lock, and nobody waits on its account. -/
theorem SessionStep.idle_of_timesOut {step : SessionStep ι} {answer : SessionAnswer ι}
    (h : step.timesOut answer = true) :
    step.takes answer = false ∧ answer.next? = none ∧ answer ≠ .waiting := by
  cases step with
  | tryLockFor span clock =>
    cases answer with
    | got success =>
      cases success with
      | false => exact ⟨rfl, rfl, nofun⟩
      | true => exact nomatch h
    | _ => exact nomatch h
  | _ => exact nomatch h

namespace Standing

/-- The standing of a lock when it has been announced that somebody waits. -/
def announce (a : Standing ι) : Standing ι := { a with announced := true }

/-- A lock stands as another one does, except that an attempt may have announced that somebody
waits. -/
def Leftover (a b : Standing ι) : Prop := b = a ∨ a.locked = true ∧ b = a.announce

variable {a b : Standing ι} {step : SessionStep ι}

/-! ### Steps on a held lock -/

/-- What a step on a held lock comes to, first as the lock stands and then with the announcement
made before. -/
inductive Echo (m : Manner) : Reply ι × Standing ι → Reply ι × Standing ι → Prop
  /-- The announcement stands. -/
  | still {answer : SessionAnswer ι} {a : Standing ι} (hheld : a.locked = true)
    (hquiet : answer.settles = false) :
    Echo m (⟨answer, none⟩, a) (⟨answer, none⟩, a.announce)
  /-- A thread starts to wait, and announces itself. -/
  | wait {announced : Bool} {a : Standing ι} :
    Echo m (⟨.waiting, m.spins announced⟩, a) (⟨.waiting, m.spins true⟩, a)
  /-- The lock is handed on. -/
  | same {outcome : Reply ι × Standing ι} : Echo m outcome outcome

theorem attempt_of_locked (hheld : a.locked = true) (otherwise : Standing ι) :
    a.attempt otherwise = (⟨.got false, none⟩, otherwise) := if_pos hheld

theorem arrive_of_locked (hheld : a.locked = true) (id : ι) (spun : Option UInt64) :
    a.arrive id spun = (⟨.waiting, spun⟩, a.wait id) := if_pos hheld

theorem unlock_of_locked (hheld : a.locked = true) :
    a.unlock m = (.handed (m.tell a.waiting.head?), a.handOn) := if_pos hheld

theorem lockByCaller_of_locked (hheld : a.locked = true) :
    a.lockByCaller = (⟨.wouldBlock, none⟩, a) := if_pos hheld

/-- An announcement changes nothing in an attempt of the caller. -/
theorem echo_tryUntil (hheld : a.locked = true) (span : Span) (clock : ClockReadings) :
    Echo m (a.tryUntil span clock) (a.announce.tryUntil span clock) := by
  have hheld' : a.announce.locked = true := hheld
  rw [tryUntil, tryUntil, hheld, hheld', attempt_of_locked hheld, attempt_of_locked hheld']
  split
  · exact .still hheld rfl
  · exact .still hheld rfl

/-- What an announcement changes in a step. -/
theorem echo_step [BEq ι] (hheld : a.locked = true) (hstep : step.isTimed = false) :
    Echo m (a.step m step) (a.announce.step m step) := by
  have hheld' : a.announce.locked = true := hheld
  cases step with
  | lock =>
    rw [Standing.step, Standing.step, lockByCaller_of_locked hheld, lockByCaller_of_locked hheld']
    exact .still hheld rfl
  | tryLock =>
    rw [Standing.step, Standing.step, attempt_of_locked hheld, attempt_of_locked hheld']
    exact .still hheld rfl
  | threadTryLock => exact .still hheld rfl
  | tryLockFor span clock =>
    rw [Standing.step, Standing.step]
    split
    · rw [tryFor, tryFor, hheld, hheld', lockByCaller_of_locked hheld, lockByCaller_of_locked hheld']
      split
      · exact .still hheld rfl
      · split
        · exact .still hheld rfl
        · exact echo_tryUntil hheld span clock
    · exact .still hheld rfl
  | tryLockUntilNow clock =>
    rw [Standing.step, Standing.step]
    split
    · exact echo_tryUntil hheld ⟨0⟩ clock
    · exact .still hheld rfl
  | spawn id =>
    rw [Standing.step, Standing.step, arrive_of_locked hheld, arrive_of_locked hheld']
    exact .wait
  | spawnFor id span start =>
    have hends : (start.later? span).isNone = true := by
      rw [← Option.not_isSome, Bool.not_eq_true']
      exact hstep
    rw [Standing.step, Standing.step]
    split
    · rw [spawnFor, spawnFor, if_pos hends, if_pos hends, arrive_of_locked hheld,
        arrive_of_locked hheld']
      split
      · exact .still hheld rfl
      · exact .wait
    · exact .still hheld rfl
  | unlock =>
    rw [Standing.step, Standing.step, unlock_of_locked hheld, unlock_of_locked hheld']
    exact .same
  | unlockFair =>
    rw [Standing.step, Standing.step, unlock_of_locked hheld, unlock_of_locked hheld']
    split
    · exact .same
    · exact .still hheld rfl
  | unwind =>
    rw [Standing.step, Standing.step]
    split
    · exact .still hheld rfl
    · obtain ⟨id, hholder⟩ := Option.isSome_iff_exists.1 hheld
      have hholder' : a.announce.holder = some id := hholder
      have hcaller : a.announce.caller = a.caller := rfl
      simp only [unwind, hholder, hholder', hcaller]
      split
      · exact .still hheld rfl
      · exact .same
  | look => exact .still hheld rfl

/-! ### Runs -/

/-- Nothing but the word shows an announcement. -/
theorem view_announce (hheld : a.locked = true) :
    a.announce.view Primitive.futex.manner =
      { a.view Primitive.futex.manner with state := some .lockedHasWaiters } := by
  have hword : a.announce.word = .lockedHasWaiters := word_of_locked hheld
  have hstate : (a.announce.view Primitive.futex.manner).state = some a.announce.word :=
    state_view_of_locked hheld rfl
  rw [hword] at hstate
  exact congrArg (View.mk _ none) hstate

/-- The results of a script on a sleeping lock, and those after an announcement. The word says "has
waiters" then, until the lock is handed on or a thread starts to wait; and that thread does not
spin. -/
inductive Confined : (results results' : List (Reply ι × View)) → Prop
  | same {results : List (Reply ι × View)} : Confined results results
  | wait {view : View} {results : List (Reply ι × View)} :
    Confined ((⟨.waiting, some Mutex.spinLimit⟩, view) :: results)
      ((⟨.waiting, some 0⟩, view) :: results)
  | still {reply : Reply ι} {view : View} {results results' : List (Reply ι × View)}
    (hquiet : reply.answer.settles = false)
    (hstate : view.state = some .lockedNoWaiters ∨ view.state = some .lockedHasWaiters)
    (h : Confined results results') :
    Confined ((reply, view) :: results)
      ((reply, { view with state := some .lockedHasWaiters }) :: results')

/-- What an announcement on a held lock changes in a script. -/
theorem announce_run [BEq ι] (hheld : a.locked = true) {steps : List (SessionStep ι)}
    (hsteps : ∀ step ∈ steps, step.isTimed = false) :
    Confined (a.run Primitive.futex.manner steps).1
        (a.announce.run Primitive.futex.manner steps).1 ∧
      (a.run Primitive.futex.manner steps).2.Leftover
        (a.announce.run Primitive.futex.manner steps).2 ∧
      ((∃ r ∈ (a.run Primitive.futex.manner steps).1, r.1.answer.next? ≠ none) →
        (a.announce.run Primitive.futex.manner steps).2 =
          (a.run Primitive.futex.manner steps).2) := by
  induction steps generalizing a with
  | nil =>
    refine ⟨.same, .inr ⟨hheld, rfl⟩, ?_⟩
    rintro ⟨r, hr, -⟩
    exact absurd hr List.not_mem_nil
  | cons step steps ih =>
    obtain ⟨hstep, hsteps⟩ := List.forall_mem_cons.1 hsteps
    have hecho := echo_step (m := Primitive.futex.manner) hheld hstep
    simp only [Standing.run]
    generalize a.step Primitive.futex.manner step = outcome,
      a.announce.step Primitive.futex.manner step = outcome' at hecho
    cases hecho with
    | @still answer a hheld hquiet =>
      obtain ⟨hconfined, hleftover, hreleased⟩ := ih hheld hsteps
      rw [view_announce hheld]
      refine ⟨.still hquiet ?_ hconfined, hleftover, ?_⟩
      · rw [state_view_of_locked hheld rfl, word_of_locked hheld]
        cases a.announced with
        | false => exact .inl rfl
        | true => exact .inr rfl
      · rintro ⟨r, hr, hreleases⟩
        obtain rfl | hr := List.mem_cons.1 hr
        · exact absurd (SessionAnswer.settles_eq_false_iff.1 hquiet).1 hreleases
        · exact hreleased ⟨r, hr, hreleases⟩
    | @wait announced a =>
      refine ⟨?_, .inl rfl, fun _ => rfl⟩
      cases announced with
      | false => exact .wait
      | true => exact .same
    | same => exact ⟨.same, .inl rfl, fun _ => rfl⟩

namespace Confined

variable {results results' : List (Reply ι × View)}

theorem length_eq (h : Confined results results') : results'.length = results.length := by
  induction h with
  | same => rfl
  | wait => rfl
  | still _ _ _ ih => exact congrArg (· + 1) ih

/-- How one of the results can differ. -/
theorem getElem? (h : Confined results results') {i : ℕ} {r r' : Reply ι × View}
    (hr : results[i]? = some r) (hr' : results'[i]? = some r') :
    r'.1.answer = r.1.answer ∧ r'.2.locked = r.2.locked ∧
      (r' = r ∨
        ((∀ q ∈ results.take (i + 1), q.1.answer.next? = none) ∧
          r.2.state = some .lockedNoWaiters ∧
          r' = (r.1, { r.2 with state := some .lockedHasWaiters })) ∨
        ((∀ q ∈ results.take i, q.1.answer.next? = none ∧ q.1.answer ≠ .waiting) ∧
          r.1 = ⟨.waiting, some 100⟩ ∧ r' = (⟨.waiting, some 0⟩, r.2))) := by
  induction h generalizing i with
  | same =>
    obtain rfl := Option.some.inj (hr'.symm.trans hr)
    exact ⟨rfl, rfl, .inl rfl⟩
  | wait =>
    cases i with
    | zero =>
      obtain rfl := Option.some.inj hr
      obtain rfl := Option.some.inj hr'
      exact ⟨rfl, rfl, .inr (.inr ⟨by simp, rfl, rfl⟩)⟩
    | succ i =>
      obtain rfl := Option.some.inj (hr'.symm.trans hr)
      exact ⟨rfl, rfl, .inl rfl⟩
  | @still reply view results results' hquiet hstate h ih =>
    obtain ⟨hnext, hwaiting⟩ := SessionAnswer.settles_eq_false_iff.1 hquiet
    cases i with
    | zero =>
      obtain rfl := Option.some.inj hr
      obtain rfl := Option.some.inj hr'
      refine ⟨rfl, rfl, ?_⟩
      obtain halone | hannounced := hstate
      · refine .inr (.inl ⟨?_, halone, rfl⟩)
        simpa using hnext
      · refine .inl (congrArg (Prod.mk reply) ?_)
        rw [← hannounced]
    | succ i =>
      obtain ⟨hanswer, hlocked, hdiffers⟩ := ih hr hr'
      refine ⟨hanswer, hlocked, ?_⟩
      obtain hsame | ⟨hheld, hword⟩ | ⟨hnobody, hspun⟩ := hdiffers
      · exact .inl hsame
      · exact .inr (.inl ⟨List.forall_mem_cons.2 ⟨hnext, hheld⟩, hword⟩)
      · exact .inr (.inr ⟨List.forall_mem_cons.2 ⟨⟨hnext, hwaiting⟩, hnobody⟩, hspun⟩)

end Confined

/-- What an attempt that gives up has done: nothing, or it has announced that somebody waits. -/
theorem Effect.leftover {a' : Standing ι} {reply : Reply ι} (h : Effect m a step reply a')
    (htimesOut : step.timesOut reply.answer = true) : a.Leftover a' := by
  obtain ⟨htakes, hnext, hwaiting⟩ := SessionStep.idle_of_timesOut htimesOut
  cases h with
  | take hfree htakes' => exact absurd (htakes.symm.trans htakes') Bool.false_ne_true
  | wait hheld hwaiter => exact absurd rfl hwaiting
  | handOn hheld hnext' => exact nomatch hnext.symm.trans hnext'
  | giveUp hheld _ => exact .inr ⟨hheld, rfl⟩
  | still _ _ _ _ => exact .inl rfl

theorem Leftover.trans {c : Standing ι} (h : a.Leftover b) (h' : b.Leftover c) : a.Leftover c := by
  obtain rfl | ⟨hheld, rfl⟩ := h
  · exact h'
  · obtain rfl | ⟨-, rfl⟩ := h'
    · exact .inr ⟨hheld, rfl⟩
    · exact .inr ⟨hheld, rfl⟩

/-- Attempts that give up leave nothing but their announcements. -/
theorem leftover_of_timesOut [BEq ι] {steps : List (SessionStep ι)}
    (h : ∀ e ∈ Session.events steps (a.run m steps).1, e.step.timesOut e.answer = true) :
    a.Leftover (a.run m steps).2 := by
  induction steps generalizing a with
  | nil => exact .inl rfl
  | cons step steps ih =>
    obtain ⟨htimesOut, hrest⟩ := List.forall_mem_cons.1 h
    exact ((effect_step m a step).leftover htimesOut).trans (ih hrest)

theorem Leftover.drain_eq (h : a.Leftover b) : b.drain m = a.drain m := by
  obtain rfl | ⟨-, rfl⟩ := h
  · rfl
  · rfl

/-- What attempts that have given up change in a script. -/
theorem Leftover.run [BEq ι] (h : a.Leftover b) {steps : List (SessionStep ι)}
    (hsteps : ∀ step ∈ steps, step.isTimed = false) :
    Confined (a.run Primitive.futex.manner steps).1 (b.run Primitive.futex.manner steps).1 ∧
      (a.run Primitive.futex.manner steps).2.Leftover (b.run Primitive.futex.manner steps).2 ∧
      ((∃ r ∈ (a.run Primitive.futex.manner steps).1, r.1.answer.next? ≠ none) →
        (b.run Primitive.futex.manner steps).2 = (a.run Primitive.futex.manner steps).2) := by
  obtain rfl | ⟨hheld, rfl⟩ := h
  · exact ⟨.same, .inl rfl, fun _ => rfl⟩
  · exact announce_run hheld hsteps

end Standing

/-! ### Sessions -/

/-- The first results of a script are those of its first steps. -/
theorem Session.run_take [BEq ι] {L : RawLock} (s : Session L ι) (steps : List (SessionStep ι))
    (n : ℕ) : (s.run (steps.take n)).1 = (s.run steps).1.take n := by
  induction steps generalizing s n with
  | nil => rw [List.take_nil, run, List.take_nil]
  | cons step steps ih =>
    cases n with
    | zero => rfl
    | succ n => exact congrArg (_ :: ·) (ih (s.step step).2 n)

namespace Mutex

/-- The word of a lock is told by its line and the announcement. -/
theorem eq_ofState_of_holds {n : ℕ} {l : Mutex} {line : List Unit} {b : Bool}
    (h : custody.Holds n l line) (hb : l.sleeps = b) :
    l = ofState (if line.length = 0 then .unlocked
      else if b then .lockedHasWaiters else .lockedNoWaiters) := by
  obtain ⟨s, rfl, htells⟩ := h
  rw [← htells.eq_state hb]

/-- Two sessions with a sleeping lock are the same if their locks stand alike. -/
theorem session_eq_of_tracks {n n' : ℕ} {s s' : Session raw ι} {a : Standing ι}
    (h : Primitive.futex.conduct.Tracks n s a) (h' : Primitive.futex.conduct.Tracks n' s' a) :
    s = s' := by
  generalize ha : a = a' at h'
  cases h with
  | @free caller l hholds hb =>
    cases h' with
    | @free caller' l' hholds' hb' =>
      obtain rfl : caller = caller' := congrArg (·.caller) ha
      obtain rfl : l = l' :=
        (eq_ofState_of_holds hholds hb).trans (eq_ofState_of_holds hholds' hb').symm
      rfl
    | held hholds' hb' => exact nomatch congrArg (·.holder) ha
  | @held caller l w ws b hholds hb =>
    cases h' with
    | free hholds' hb' => exact nomatch congrArg (·.holder) ha
    | @held caller' l' w' ws' b' hholds' hb' =>
      obtain rfl : caller = caller' := congrArg (·.caller) ha
      obtain rfl : b = b' := congrArg (·.announced) ha
      obtain rfl : w = w' := Prod.ext (Option.some.inj (congrArg (·.holder) ha)) rfl
      obtain rfl : ws = ws' := by
        refine List.map_injective_iff.2 (fun v v' hid => ?_) (congrArg (·.waiting) ha)
        exact Prod.ext hid rfl
      obtain rfl : l = l' :=
        (eq_ofState_of_holds hholds hb).trans (eq_ofState_of_holds hholds' hb').symm
      rfl

/-- What attempts that have given up change in a script of a session. -/
theorem session_run_of_leftover [BEq ι] {n n' : ℕ} {s s' : Session raw ι} {a b : Standing ι}
    (h : Primitive.futex.conduct.Tracks n s a) (h' : Primitive.futex.conduct.Tracks n' s' b)
    (hleftover : a.Leftover b) {steps : List (SessionStep ι)}
    (hsteps : ∀ step ∈ steps, step.isTimed = false) :
    Standing.Confined (s.run steps).1 (s'.run steps).1 ∧
      (s'.run steps).2.drain.1 = (s.run steps).2.drain.1 ∧
      ((∃ r ∈ (s.run steps).1, r.1.answer.next? ≠ none) →
        (s'.run steps).2 = (s.run steps).2) := by
  obtain ⟨hresults, htracks⟩ : (s.run steps).1 = (a.run Primitive.futex.manner steps).1 ∧
      Primitive.futex.conduct.Tracks _ (s.run steps).2 (a.run Primitive.futex.manner steps).2 :=
    h.run fun _ _ => Primitive.futex.room nofun
  obtain ⟨hresults', htracks'⟩ : (s'.run steps).1 = (b.run Primitive.futex.manner steps).1 ∧
      Primitive.futex.conduct.Tracks _ (s'.run steps).2 (b.run Primitive.futex.manner steps).2 :=
    h'.run fun _ _ => Primitive.futex.room nofun
  obtain ⟨hconfined, hends, hreleased⟩ := hleftover.run hsteps
  rw [← hresults] at hconfined hreleased
  rw [← hresults'] at hconfined
  refine ⟨hconfined, ?_, fun hreleases => ?_⟩
  · have hdrained := (htracks.drainWithin (Nat.lt_succ_self _)).1
    have hdrained' := (htracks'.drainWithin (Nat.lt_succ_self _)).1
    exact hdrained'.trans (hends.drain_eq.trans hdrained.symm)
  · rw [hreleased hreleases] at htracks'
    exact session_eq_of_tracks htracks' htracks

/-- **A timed-out attempt leaves nothing but its announcement.** After some steps on a new sleeping
lock any number of attempts are made that give up; then other steps follow, none of
which starts a thread that waits until a deadline. Compared with the same steps without the
attempts:

* Every one of these steps has the same answer, and leaves the lock held or not as it does without
  the attempts. Its result is the same altogether, with two exceptions. As long as the lock has not
  been given back, the word may say "has waiters" instead of "no waiters". And the first thread that
  starts to wait, if the lock has not been given back before, may not have spun instead of having
  spun 100 times.
* In the end the lock is given back to the same threads.
* Once the lock has been given back, the two sessions are the same. -/
theorem timed_out_attempts_leave_announcement [BEq ι] (caller : ι)
    (before attempts after : List (SessionStep ι))
    (hafter : ∀ step ∈ after, step.isTimed = false) :
    let s := ((Session.new caller : Session raw ι).run before).2
    let tried := s.run attempts
    let original := s.run after
    let extended := tried.2.run after
    (∀ e ∈ Session.events attempts tried.1, e.step.timesOut e.answer = true) →
      extended.1.length = original.1.length ∧
        (∀ i r r', original.1[i]? = some r → extended.1[i]? = some r' →
          r'.1.answer = r.1.answer ∧ r'.2.locked = r.2.locked ∧
            (r' = r ∨
              ((∀ q ∈ original.1.take (i + 1), q.1.answer.next? = none) ∧
                r.2.state = some .lockedNoWaiters ∧
                r' = (r.1, { r.2 with state := some .lockedHasWaiters })) ∨
              ((∀ q ∈ original.1.take i, q.1.answer.next? = none ∧ q.1.answer ≠ .waiting) ∧
                r.1 = ⟨.waiting, some 100⟩ ∧ r' = (⟨.waiting, some 0⟩, r.2)))) ∧
        extended.2.drain.1 = original.2.drain.1 ∧
        ∀ n, (∃ r ∈ original.1.take n, r.1.answer.next? ≠ none) →
          (tried.2.run (after.take n)).2 = (s.run (after.take n)).2 := by
  intro s tried original extended htimesOut
  obtain ⟨-, drawn, htracks⟩ := Primitive.futex.tracks_run caller before nofun
  obtain ⟨htried, htracks'⟩ := htracks.run fun _ _ => Primitive.futex.room nofun
  have hleftover := Standing.leftover_of_timesOut (htried ▸ htimesOut)
  obtain ⟨hconfined, hdrained, -⟩ := session_run_of_leftover htracks htracks' hleftover hafter
  refine ⟨hconfined.length_eq, fun i r r' hr hr' => hconfined.getElem? hr hr', hdrained,
    fun n hreleases => ?_⟩
  have htake : ∀ step ∈ after.take n, step.isTimed = false := fun step hstep =>
    hafter step (List.mem_of_mem_take hstep)
  rw [← Session.run_take] at hreleases
  exact (session_run_of_leftover htracks htracks' hleftover htake).2.2 hreleases

/-- Two attempts give up while the caller holds the lock, the first one after two rounds, the other
one so late that it makes none. A look at the lock shows the announcement; when the lock has been
given back, the two sessions are the same. -/
theorem timed_out_attempts_leave_announcement_two :
    let s := ((Session.new 0 : Session raw Nat).run [.lock]).2
    let attempts : List (SessionStep Nat) :=
      [.tryLockFor (.ofMillis 5) ⟨.zero, [.ofMillis 0, .ofMillis 3, .ofMillis 5]⟩,
        .tryLockFor (.ofMillis 1) ⟨⟨7000000⟩, [.ofMillis 2]⟩]
    let tried := s.run attempts
    let after : List (SessionStep Nat) := [.look, .spawn 1, .unlock, .unlock]
    (∀ step ∈ after, step.isTimed = false) ∧
      (∀ e ∈ Session.events attempts tried.1, e.step.timesOut e.answer = true) ∧
      ((s.run after).1[0]?.map fun r => r.2.state) = some (some .lockedNoWaiters) ∧
      ((tried.2.run after).1[0]?.map fun r => r.2.state) = some (some .lockedHasWaiters) ∧
      (tried.2.run after).2.drain.1 = (s.run after).2.drain.1 ∧
      (tried.2.run (after.take 3)).2 = (s.run (after.take 3)).2 := by
  intro s attempts tried after
  have hafter : ∀ step ∈ after, step.isTimed = false := by decide
  have htimesOut : ∀ e ∈ Session.events attempts tried.1, e.step.timesOut e.answer = true := by
    decide
  obtain ⟨-, -, hdrained, hreleased⟩ :=
    timed_out_attempts_leave_announcement 0 [.lock] attempts after hafter htimesOut
  refine ⟨hafter, htimesOut, by decide, by decide, hdrained, hreleased 3 ?_⟩
  decide

end Mutex

end Handoff
