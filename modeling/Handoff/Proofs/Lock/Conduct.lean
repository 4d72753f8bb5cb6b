import Handoff.Lock.Standing
import Handoff.Proofs.Lock.Refinement

/-!
# A session shows how its lock stands

The line behind a lock says who gets it. What else the calls show, such as the word of a lock on
which threads sleep and how often they spin before, follows from the line and from what has been
announced. A `Conduct` of a lock says so call by call.

With it every step of a session, not only those that all locks have, gives exactly the reply that
`Standing.step` gives, and whatever can be seen of the lock afterwards is what `Standing.view` says
(`Conduct.Tracks.step`, `Conduct.Tracks.view_eq`). Hence so does a whole script
(`Conduct.Tracks.run`), and the lock is given back in the end to those who wait in their order, and
then to nobody (`Conduct.Tracks.drainWithin`).
-/

namespace Handoff

variable {ι : Type} {L : RawLock} {m : Manner}

/-- What calls with a deadline do to the line, and what they announce. -/
structure Custody.Timed (C : Custody L) (Announced : Bool → L.State → Prop)
    (calls : TimedCalls L.State L.Pass) : Prop where
  /-- An attempt on a free lock gets it, whatever the clock reads. -/
  tryLockUntil_nil {n : Nat} {l : L.State} (h : C.Holds n l []) (hroom : C.Room n)
    (deadline : Instant) (readings : List Instant) :
    ∃ pass l', calls.tryLockUntil deadline readings l = (some (some pass), l') ∧
      C.Holds (n + 1) l' [pass] ∧ Announced false l'
  /-- An attempt on a held lock does not get it, and gives up when a reading is past the deadline.
  It announces that somebody waits, unless the first reading is past the deadline already. -/
  tryLockUntil_cons {n : Nat} {l : L.State} {pass : L.Pass} {line : List L.Pass} {b : Bool}
    (h : C.Holds n l (pass :: line)) (hb : Announced b l) (deadline : Instant)
    (readings : List Instant) :
    ∃ l', calls.tryLockUntil deadline readings l =
        (if readings.any (·.isPast deadline) then some none else none, l') ∧
      C.Holds n l' (pass :: line) ∧
      Announced (b || readings.head?.any fun now => !now.isPast deadline) l'
  /-- A thread with a deadline comes last too, and says nothing when it goes to sleep. -/
  arrive {n : Nat} {l : L.State} {line : List L.Pass} (h : C.Holds n l line)
    (hroom : C.Room n) :
    (calls.arrive l).holds = line.isEmpty ∧ (calls.arrive l).spunBeforeSleep = none ∧
      C.Holds (n + 1) (calls.arrive l).state (line ++ [(calls.arrive l).pass]) ∧
      Announced (!line.isEmpty) (calls.arrive l).state

/-- What the calls of a lock of a manner show, beside what its custody says. -/
structure Conduct (C : Custody L) (m : Manner) where
  /-- Whether the lock tells that it has been announced that somebody waits. -/
  Announced : Bool → L.State → Prop
  new : Announced false L.new
  fair : L.fair = m.fair
  view {n : Nat} {l : L.State} {line : List L.Pass} {b : Bool} (h : C.Holds n l line)
    (hb : Announced b l) : L.view l = m.view line.length b
  /-- Whoever has to wait announces it. -/
  lock {n : Nat} {l : L.State} {line : List L.Pass} {b : Bool} (h : C.Holds n l line)
    (hb : Announced b l) :
    (L.lock l).spunBeforeSleep = (if line.isEmpty then none else m.spins b) ∧
      Announced (!line.isEmpty) (L.lock l).state
  tryLock {n : Nat} {l l' : L.State} {pass : L.Pass} (h : C.Holds n l [])
    (htry : L.tryLock l = .ok (some pass, l')) : Announced false l'
  unlock_last {n : Nat} {l : L.State} {pass : L.Pass} {release : Release L.State}
    (h : C.Holds n l [pass]) (hunlock : L.unlock pass l = .ok release) :
    Announced false release.state
  /-- A thread that gets the lock after it has waited announces the others that may wait. -/
  unlock_next {n : Nat} {l l' : L.State} {pass heir : L.Pass} {line : List L.Pass}
    {release : Release L.State} (h : C.Holds n l (pass :: heir :: line))
    (hunlock : L.unlock pass l = .ok release)
    (hrecheck : L.recheck heir release.state = (true, l')) : Announced true l'
  unlockUnheld {n : Nat} {l : L.State} (h : C.Holds n l []) :
    L.unlockUnheld.map (fun call => call l) = m.unheld.map .error
  timed_isSome : L.timed.isSome = m.sleepsAfter.isSome
  timed {calls : TimedCalls L.State L.Pass} (h : L.timed = some calls) : C.Timed Announced calls

namespace Conduct

variable {C : Custody L} {K : Conduct C m} {drawn : Nat} {s : Session L ι} {a : Standing ι}

/-- The holder and the waiting threads of a session have the passes in the line behind its lock, and
the lock stands as it is said to. -/
inductive Tracks (K : Conduct C m) (drawn : Nat) : Session L ι → Standing ι → Prop
  | free {caller : ι} {l : L.State} (h : C.Holds drawn l []) (hb : K.Announced false l) :
    Tracks K drawn ⟨caller, l, none, []⟩ ⟨⟨caller, none, []⟩, false⟩
  | held {caller : ι} {l : L.State} {w : ι × L.Pass} {ws : List (ι × L.Pass)} {b : Bool}
    (h : C.Holds drawn l (w.2 :: ws.map Prod.snd)) (hb : K.Announced b l) :
    Tracks K drawn ⟨caller, l, some w, ws⟩ ⟨⟨caller, some w.1, ws.map Prod.fst⟩, b⟩

/-- A step has exactly the reply that it has for a lock which stands so, and the lock stands
afterwards as it should. -/
structure Follows (K : Conduct C m) (drawn : Nat) (outcome : Reply ι × Session L ι)
    (expected : Reply ι × Standing ι) : Prop where
  reply : outcome.1 = expected.1
  tracks : K.Tracks (drawn + outcome.1.answer.draws) outcome.2 expected.2

theorem tracks_new (K : Conduct C m) (caller : ι) : K.Tracks 0 (Session.new caller) (.new caller) :=
  .free C.new K.new

/-- A fair lock and its manner tell the same of who gets it. -/
theorem next_eq_tell (K : Conduct C m) (heir : Option ι) : Session.next L heir = m.tell heir := by
  cases heir with
  | none => rfl
  | some id => rw [Session.next, Manner.tell, K.fair]

theorem unlockUnheld_isSome (K : Conduct C m) : L.unlockUnheld.isSome = m.unheld.isSome := by
  rw [← Option.isSome_map (f := fun call => call L.new), K.unlockUnheld C.new, Option.isSome_map]

/-- A lock that sleeps has calls with a deadline, and no other lock has. -/
theorem timed_cases (K : Conduct C m) :
    (L.timed = none ∧ m.sleepsAfter.isSome = false) ∨
      ∃ calls, L.timed = some calls ∧ m.sleepsAfter.isSome = true ∧
        C.Timed K.Announced calls := by
  have hsome := K.timed_isSome
  cases htimed : L.timed with
  | none =>
    rw [htimed] at hsome
    exact .inl ⟨rfl, hsome.symm⟩
  | some calls =>
    rw [htimed] at hsome
    exact .inr ⟨calls, rfl, hsome.symm, K.timed htimed⟩

/-- A step that changes nothing and draws no pass. -/
theorem Follows.still {reply : Reply ι} (h : K.Tracks drawn s a) (hdraws : reply.answer.draws = 0) :
    K.Follows drawn (reply, s) (reply, a) := by
  refine ⟨rfl, ?_⟩
  rw [hdraws]
  exact h

namespace Tracks

/-- The standing of the lock is that of the ideal lock, and whether it is announced. -/
theorem toIdeal_eq (h : K.Tracks drawn s a) : a.toIdeal = s.toIdeal := by
  cases h <;> rfl

/-- Somebody holds the lock exactly if somebody does as it stands. -/
theorem locked_eq (h : K.Tracks drawn s a) : a.locked = s.holder.isSome := by
  have hideal : a.toIdeal.locked = s.toIdeal.locked := congrArg Ideal.locked h.toIdeal_eq
  exact hideal.trans Option.isSome_map

theorem length_waiting (h : K.Tracks drawn s a) : a.waiting.length = s.waiting.length := by
  have hideal : a.toIdeal.waiting = s.toIdeal.waiting := congrArg Ideal.waiting h.toIdeal_eq
  exact (congrArg List.length hideal).trans (List.length_map ..)

/-- There is a line behind the lock, and it is empty exactly if nobody holds the lock. -/
theorem exists_holds (h : K.Tracks drawn s a) :
    ∃ line, C.Holds drawn s.lock line ∧ (line = [] ↔ s.holder = none) := by
  cases h with
  | free h hb => exact ⟨[], h, iff_of_true rfl rfl⟩
  | held h hb => exact ⟨_, h, iff_of_false nofun nofun⟩

/-- What can be seen of the lock is what its standing says. -/
theorem view_eq (h : K.Tracks drawn s a) : s.view = a.view m := by
  cases h with
  | free h hb => exact K.view h hb
  | @held caller l w ws b h hb =>
    rw [Session.view, K.view h hb, Standing.view, Standing.users, List.length_cons,
      List.length_map]
    change m.view _ b = m.view (1 + (ws.map Prod.fst).length) b
    rw [List.length_map, Nat.add_comm]

/-! ### Getting the lock -/

theorem lockByCaller (h : K.Tracks drawn s a) (hroom : C.Room drawn) :
    K.Follows drawn s.lockByCaller a.lockByCaller := by
  cases h with
  | free h hb =>
    obtain ⟨hholds, hnew⟩ := C.lock h hroom
    obtain ⟨-, hb'⟩ := K.lock h hb
    rw [Session.lockByCaller]
    simp only [hholds, List.isEmpty_nil, if_true]
    exact ⟨rfl, .held hnew hb'⟩
  | held h hb => exact .still (.held h hb) rfl

/-- A thread comes for the lock, and what its call does is known. -/
theorem afterArrival (h : K.Tracks drawn s a) (id : ι) {arrival : Arrival L.State L.Pass}
    {spun : Option UInt64}
    (harrival : ∀ line, C.Holds drawn s.lock line → K.Announced a.announced s.lock →
      arrival.holds = line.isEmpty ∧
        arrival.spunBeforeSleep = (if line.isEmpty then none else spun) ∧
        C.Holds (drawn + 1) arrival.state (line ++ [arrival.pass]) ∧
        K.Announced (!line.isEmpty) arrival.state) :
    K.Follows drawn (s.afterArrival id arrival) (a.arrive id spun) := by
  cases h with
  | free h hb =>
    obtain ⟨hholds, hspun, hnew, hb'⟩ := harrival _ h hb
    rw [Session.afterArrival]
    simp only [hholds, hspun, List.isEmpty_nil, if_true]
    exact ⟨rfl, .held hnew hb'⟩
  | @held caller l w ws b h hb =>
    obtain ⟨hholds, hspun, hnew, hb'⟩ := harrival _ h hb
    rw [Session.afterArrival]
    simp only [hholds, hspun, List.isEmpty_cons, Bool.false_eq_true, if_false]
    refine ⟨rfl, ?_⟩
    have hline : w.2 :: (ws ++ [(id, arrival.pass)]).map Prod.snd =
        w.2 :: ws.map Prod.snd ++ [arrival.pass] := by
      rw [List.map_append]
      rfl
    have htracks : K.Tracks (drawn + 1)
        ⟨caller, arrival.state, some w, ws ++ [(id, arrival.pass)]⟩
        ⟨⟨caller, some w.1, (ws ++ [(id, arrival.pass)]).map Prod.fst⟩, true⟩ :=
      .held (hline ▸ hnew) hb'
    rw [List.map_append] at htracks
    exact htracks

theorem spawn (h : K.Tracks drawn s a) (hroom : C.Room drawn) (id : ι) :
    K.Follows drawn (s.afterArrival id (L.lock s.lock)) (a.arrive id (m.spins a.announced)) := by
  refine h.afterArrival id fun line hline hb => ?_
  obtain ⟨hholds, hnew⟩ := C.lock hline hroom
  obtain ⟨hspun, hb'⟩ := K.lock hline hb
  exact ⟨hholds, hspun, hnew, hb'⟩

theorem tryLock [BEq ι] (h : K.Tracks drawn s a) (hroom : C.Room drawn) :
    K.Follows drawn (s.step .tryLock) (a.step m .tryLock) := by
  cases h with
  | free h hb =>
    obtain ⟨pass, l', htry, hnew⟩ := C.tryLock_nil h hroom
    simp only [Session.step, htry]
    exact ⟨rfl, .held hnew (K.tryLock h htry)⟩
  | held h hb =>
    simp only [Session.step, C.tryLock_cons h]
    exact .still (.held h hb) rfl

/-- A thread that gets the lock and gives it back at once leaves nothing but the number of its
pass. -/
theorem threadTryLock [BEq ι] (h : K.Tracks drawn s a) (hroom : C.Room drawn) :
    K.Follows drawn (s.step .threadTryLock) (a.step m .threadTryLock) := by
  cases h with
  | free h hb =>
    obtain ⟨pass, l', htry, hnew⟩ := C.tryLock_nil h hroom
    obtain ⟨release, hunlock, hfree⟩ := C.unlock_last hnew
    simp only [Session.step, Session.tryByThread, htry, hunlock]
    exact ⟨rfl, .free hfree (K.unlock_last hnew hunlock)⟩
  | held h hb =>
    simp only [Session.step, Session.tryByThread, C.tryLock_cons h]
    exact .still (.held h hb) rfl

/-! ### Deadlines -/

/-- The caller tries until a span is over. -/
theorem tryUntil {calls : TimedCalls L.State L.Pass} (hcalls : C.Timed K.Announced calls)
    (h : K.Tracks drawn s a) (hroom : C.Room drawn) (span : Span) (clock : ClockReadings) :
    K.Follows drawn (s.tryUntil calls (clock.start.plus span) clock.others)
      (a.tryUntil span clock) := by
  cases h with
  | free h hb =>
    obtain ⟨pass, l', htry, hnew, hb'⟩ :=
      hcalls.tryLockUntil_nil h hroom (clock.start.plus span) clock.others
    simp only [Session.tryUntil, htry]
    exact ⟨rfl, .held hnew hb'⟩
  | held h hb =>
    obtain ⟨l', htry, hold, hb'⟩ :=
      hcalls.tryLockUntil_cons h hb (clock.start.plus span) clock.others
    rw [clock.any_isPast_others] at htry
    rw [clock.any_head?_others] at hb'
    cases hover : clock.outlasts span with
    | true =>
      simp only [hover, if_true] at htry
      simp only [Session.tryUntil, htry, Standing.tryUntil, hover]
      exact ⟨rfl, .held hold hb'⟩
    | false =>
      simp only [hover, Bool.false_eq_true, if_false] at htry
      simp only [Session.tryUntil, htry, Standing.tryUntil, hover]
      exact .still (.held h hb) rfl

theorem tryFor {calls : TimedCalls L.State L.Pass} (hcalls : C.Timed K.Announced calls)
    (h : K.Tracks drawn s a) (hroom : C.Room drawn) (span : Span) (clock : ClockReadings) :
    K.Follows drawn (s.tryFor calls span clock) (a.tryFor span clock) := by
  rw [Session.tryFor, Standing.tryFor, ← h.locked_eq]
  cases a.locked && Session.patience.shorterThan span with
  | true => exact .still h rfl
  | false =>
    rw [if_neg Bool.false_ne_true, if_neg Bool.false_ne_true]
    cases hdeadline : clock.start.later? span with
    | none => exact h.lockByCaller hroom
    | some deadline =>
      obtain rfl := Instant.eq_plus_of_later? hdeadline
      exact tryUntil hcalls h hroom span clock

theorem spawnFor {calls : TimedCalls L.State L.Pass} (hcalls : C.Timed K.Announced calls)
    (hsleeps : m.sleepsAfter.isSome = true) (h : K.Tracks drawn s a) (hroom : C.Room drawn)
    (id : ι) (span : Span) (start : Instant) :
    K.Follows drawn (s.spawnUntil calls id span start) (a.spawnFor m id span start) := by
  -- the word of a held lock is the quiet one exactly if nothing is announced
  have hquiet : (s.holder.isSome && s.view.state ≠ some .lockedNoWaiters) =
      (a.locked && a.announced) := by
    rw [h.view_eq, Standing.view, Manner.view, hsleeps, if_pos rfl]
    cases h with
    | free h hb => rfl
    | @held caller l w ws b h hb => cases b <;> simp [Standing.users, Ideal.locked]
  rw [Session.spawnUntil, Standing.spawnFor, hquiet]
  cases span.shorterThan Session.leastTime with
  | true => exact .still h rfl
  | false =>
    rw [if_neg Bool.false_ne_true, if_neg Bool.false_ne_true]
    cases start.later? span with
    | none => exact h.spawn hroom id
    | some deadline =>
      cases a.locked && a.announced with
      | true => exact .still h rfl
      | false =>
        refine h.afterArrival id fun line hline _ => ?_
        obtain ⟨hholds, hspun, hnew, hb'⟩ := hcalls.arrive hline hroom
        exact ⟨hholds, by rw [hspun, ite_self], hnew, hb'⟩

/-! ### Giving the lock back -/

/-- The holder hands the lock to the first of the waiting threads, if there is one. -/
theorem unlock_held (caller : ι) {l : L.State} {w : ι × L.Pass} {ws : List (ι × L.Pass)} {b : Bool}
    (h : C.Holds drawn l (w.2 :: ws.map Prod.snd)) :
    ∃ l', Session.unlock ⟨caller, l, some w, ws⟩ =
        (.handed (m.tell (ws.head?.map Prod.fst)), ⟨caller, l', ws.head?, ws.tail⟩) ∧
      K.Tracks drawn ⟨caller, l', ws.head?, ws.tail⟩
        (Standing.handOn ⟨⟨caller, some w.1, ws.map Prod.fst⟩, b⟩) := by
  cases ws with
  | nil =>
    obtain ⟨release, hunlock, hfree⟩ := C.unlock_last h
    refine ⟨release.state, ?_, .free hfree (K.unlock_last h hunlock)⟩
    simp only [Session.unlock, hunlock, Session.afterRelease, Session.serve, ite_self]
    rfl
  | cons heir ws =>
    obtain ⟨release, l', hunlock, hwakes, hrecheck, hnew⟩ := C.unlock_next h
    refine ⟨l', ?_, .held hnew (K.unlock_next h hunlock hrecheck)⟩
    simp only [Session.unlock, hunlock, Session.afterRelease, hwakes, if_true, Session.serve,
      hrecheck, Option.map_some, K.next_eq_tell]
    rfl

/-- A release, successful or not, is what the standing of the lock makes of it. -/
theorem unlock (h : K.Tracks drawn s a) :
    s.unlock.1 = (a.unlock m).1 ∧ K.Tracks drawn s.unlock.2 (a.unlock m).2 := by
  cases h with
  | @free caller l h hb =>
    have hunheld := K.unlockUnheld h
    cases hcall : L.unlockUnheld with
    | none =>
      rw [hcall] at hunheld
      have hnone : m.unheld = none := Option.map_eq_none_iff.1 hunheld.symm
      simp only [Session.unlock, hcall, Standing.unlock, hnone]
      exact ⟨rfl, .free h hb⟩
    | some call =>
      rw [hcall, Option.map_some, eq_comm] at hunheld
      obtain ⟨fault, hsome, hfault⟩ := Option.map_eq_some_iff.1 hunheld
      simp only [Session.unlock, hcall, ← hfault, Standing.unlock, hsome]
      exact ⟨rfl, .free h hb⟩
  | @held caller l w ws b h hb =>
    obtain ⟨l', hunlock, hnew⟩ := unlock_held (K := K) (b := b) caller h
    rw [hunlock]
    refine ⟨?_, hnew⟩
    change _ = SessionAnswer.handed (m.tell (ws.map Prod.fst).head?)
    rw [List.head?_map]

theorem unwind [BEq ι] (h : K.Tracks drawn s a) :
    s.unwind.1 = (a.unwind m).1 ∧ K.Tracks drawn s.unwind.2 (a.unwind m).2 := by
  cases h with
  | free h hb => exact ⟨rfl, .free h hb⟩
  | @held caller l w ws b h hb =>
    obtain ⟨l', hunlock, hnew⟩ := unlock_held (K := K) (b := b) caller h
    simp only [Session.unwind, Standing.unwind]
    cases w.1 == caller with
    | true => exact ⟨rfl, .held h hb⟩
    | false =>
      simp only [Bool.false_eq_true, if_false, hunlock, List.head?_map]
      exact ⟨trivial, hnew⟩

/-- A release draws no pass, whatever it answers. -/
theorem draws_unlock (a : Standing ι) : (a.unlock m).1.draws = 0 := by
  rw [Standing.unlock]
  split
  · rfl
  · split <;> rfl

theorem draws_unwind [BEq ι] (a : Standing ι) : (a.unwind m).1.draws = 0 := by
  rw [Standing.unwind]
  split
  · rfl
  · split <;> rfl

/-- A step that only gives the lock back. -/
theorem follows_of_release {outcome : SessionAnswer ι × Session L ι}
    {expected : SessionAnswer ι × Standing ι} (hdraws : expected.1.draws = 0)
    (h : outcome.1 = expected.1 ∧ K.Tracks drawn outcome.2 expected.2) :
    K.Follows drawn (⟨outcome.1, none⟩, outcome.2) (⟨expected.1, none⟩, expected.2) := by
  obtain ⟨hanswer, htracks⟩ := h
  refine ⟨congrArg (Reply.mk · none) hanswer, ?_⟩
  rw [hanswer, hdraws]
  exact htracks

/-! ### Scripts -/

/-- Every step is what the standing of the lock makes of it. -/
theorem step [BEq ι] (h : K.Tracks drawn s a) (hroom : C.Room drawn) (step : SessionStep ι) :
    K.Follows drawn (s.step step) (a.step m step) := by
  cases step with
  | lock => exact h.lockByCaller hroom
  | tryLock => exact h.tryLock hroom
  | threadTryLock => exact h.threadTryLock hroom
  | tryLockFor span clock =>
    rw [Session.step, Standing.step]
    obtain ⟨htimed, hsleeps⟩ | ⟨calls, htimed, hsleeps, hcalls⟩ := K.timed_cases
    · rw [htimed, hsleeps]
      exact .still h rfl
    · rw [htimed, hsleeps]
      exact tryFor hcalls h hroom span clock
  | tryLockUntilNow clock =>
    rw [Session.step, Standing.step]
    obtain ⟨htimed, hsleeps⟩ | ⟨calls, htimed, hsleeps, hcalls⟩ := K.timed_cases
    · rw [htimed, hsleeps]
      exact .still h rfl
    · rw [htimed, hsleeps]
      exact tryUntil hcalls h hroom ⟨0⟩ clock
  | spawn id => exact h.spawn hroom id
  | spawnFor id span start =>
    rw [Session.step, Standing.step]
    obtain ⟨htimed, hsleeps⟩ | ⟨calls, htimed, hsleeps, hcalls⟩ := K.timed_cases
    · rw [htimed, hsleeps]
      exact .still h rfl
    · rw [htimed, hsleeps]
      exact spawnFor hcalls hsleeps h hroom id span start
  | unlock => exact follows_of_release (draws_unlock a) h.unlock
  | unlockFair =>
    rw [Session.step, Standing.step, K.fair, K.unlockUnheld_isSome]
    cases m.fair && m.unheld.isSome with
    | false => exact .still h rfl
    | true => exact follows_of_release (draws_unlock a) h.unlock
  | unwind =>
    rw [Session.step, Standing.step, K.unlockUnheld_isSome]
    cases m.unheld.isSome with
    | true => exact .still h rfl
    | false => exact follows_of_release (draws_unwind a) h.unwind
  | look => exact .still h rfl

/-- A script shows what the standing of the lock makes of it, as long as there are passes to draw. It
does not matter in which of the two runs they are counted. -/
theorem run [BEq ι] (h : K.Tracks drawn s a) {steps : List (SessionStep ι)}
    (hroom : ∀ n ≤ drawn + min (passesDrawn (s.run steps).1) (passesDrawn (a.run m steps).1),
      C.Room n) :
    (s.run steps).1 = (a.run m steps).1 ∧
      K.Tracks (drawn + passesDrawn (s.run steps).1) (s.run steps).2 (a.run m steps).2 := by
  induction steps generalizing s a drawn with
  | nil => exact ⟨rfl, h⟩
  | cons step steps ih =>
    obtain ⟨hreply, htracks⟩ := h.step (hroom drawn (Nat.le_add_right _ _)) step
    have hdrawn : passesDrawn (s.run (step :: steps)).1 =
        (s.step step).1.answer.draws + passesDrawn ((s.step step).2.run steps).1 := rfl
    have hdrawn' : passesDrawn (a.run m (step :: steps)).1 =
        (s.step step).1.answer.draws + passesDrawn ((a.step m step).2.run m steps).1 := by
      rw [hreply]
      rfl
    -- the bound on all draws of the script covers those before each step
    rw [hdrawn, hdrawn', Nat.add_min_add_left, ← Nat.add_assoc] at hroom
    rw [hdrawn, ← Nat.add_assoc]
    obtain ⟨hreplies, htracked⟩ := ih htracks hroom
    refine ⟨?_, htracked⟩
    exact List.cons_eq_cons.2 ⟨Prod.ext hreply htracks.view_eq, hreplies⟩

/-- Giving the lock back for as long as somebody holds it serves the waiting threads in order, and
leaves the lock as nobody holds it. -/
theorem drainWithin (h : K.Tracks drawn s a) {turns : Nat} (hturns : s.waiting.length < turns) :
    (s.drainWithin turns).1 = a.drain m ∧
      K.Tracks drawn (s.drainWithin turns).2 (.new s.caller) := by
  induction turns generalizing s a with
  | zero => exact absurd hturns (Nat.not_lt_zero _)
  | succ turns ih =>
    cases h with
    | free h hb => exact ⟨rfl, .free h hb⟩
    | @held caller l w ws b h hb =>
      obtain ⟨l', hunlock, hnew⟩ := unlock_held (K := K) (b := b) caller h
      rw [Session.drainWithin]
      simp only [hunlock]
      cases ws with
      | nil =>
        -- the lock is free after this turn, so no further one is taken
        have hlast : Session.drainWithin turns (⟨caller, l', none, []⟩ : Session L ι) =
            ([], ⟨caller, l', none, []⟩) := by
          cases turns <;> rfl
        rw [List.head?_nil, List.tail_nil, hlast]
        exact ⟨rfl, hnew⟩
      | cons heir ws =>
        obtain ⟨hnexts, hfree⟩ := ih hnew (Nat.lt_of_succ_lt_succ hturns)
        refine ⟨?_, hfree⟩
        exact congrArg _ hnexts

end Tracks

end Conduct

end Handoff
