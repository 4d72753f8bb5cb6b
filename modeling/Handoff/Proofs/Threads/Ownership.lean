import Handoff.Threads.Mutex
import Handoff.Proofs.Threads.Exclusion

/-!
# The owner of the sleeping lock

A thread owns the sleeping lock from its swap of the word out of "unlocked" up to its own access by
which the word says "unlocked" again (`Mutex.Point.isOwner`). Threads that do not own the lock write
the word too: they announce themselves, possibly between two accesses of a release. What makes that
harmless is said access by access:

* **What an access can do.** It leaves the word alone, takes or seizes the free lock, announces a
  waiting thread, or unlocks, and only the owner does the last (`Mutex.Change`,
  `Mutex.lawful_access`).
* **What a thread can rely on.** An owner relies on the lock not being free; one that is about to
  store "unlocked" relies on somebody being announced, since its swap of a lock without waiters has
  failed (`Mutex.Point.Fits`). No access of another thread takes that away
  (`Mutex.Point.Fits.of_change`).

So `Mutex.Owned` holds in every reachable state, and with it `Mutex.one_owner_at_a_time`.
-/

namespace Handoff.Mutex

/-! ### Accesses -/

/-- Whether a thread at a point owns the lock. -/
def Point.isOwner : Point → Bool
  | .holding | .checking | .releasing | .storing => true
  | _ => false

/-- What an access does to the state of the word, and to whether the thread that makes the access
owns the lock. Apart from `keep` each is a write. -/
inductive Change : (owner : Bool) → (before after : LockState) → (owner' : Bool) → Prop
  | keep {owner : Bool} {state : LockState} : Change owner state state owner
  | take : Change false .unlocked .lockedNoWaiters true
  | seize : Change false .unlocked .lockedHasWaiters true
  | announce : Change false .lockedNoWaiters .lockedHasWaiters false
  /-- The owner unlocks a lock for which nobody waits. -/
  | release : Change true .lockedNoWaiters .unlocked false
  /-- The owner stores "unlocked". -/
  | store : Change true .lockedHasWaiters .unlocked false

/-- A change of the word hands the lock over, or leaves it alone. -/
theorem Change.handover {owner owner' : Bool} {state state' : LockState}
    (h : Change owner state state' owner') :
    Program.Handover (decide (state = .unlocked)) owner (decide (state' = .unlocked)) owner' := by
  cases h with
  | keep => exact .keep
  | take => exact .take
  | seize => exact .take
  | announce => exact .keep
  | release => exact .giveUp
  | store => exact .giveUp

/-- What a thread at a point relies on about the word. A thread never gets to a broken point. -/
def Point.Fits (state : LockState) : Point → Prop
  | .holding | .checking | .releasing => state ≠ .unlocked
  | .storing => state = .lockedHasWaiters
  | .broken => False
  | _ => True

theorem Point.Fits.ne_broken {state : LockState} {p : Point} (h : p.Fits state) : p ≠ .broken := by
  rintro rfl
  exact h

/-- An owner relies on the lock not being free. -/
theorem Point.Fits.locked {state : LockState} {p : Point} (h : p.Fits state)
    (howner : p.isOwner = true) : state ≠ .unlocked := by
  cases p with
  | holding => exact h
  | checking => exact h
  | releasing => exact h
  | storing =>
    rintro rfl
    exact nomatch h
  | _ => exact nomatch howner

/-- A thread that does not own the lock relies on nothing. -/
theorem Point.Fits.of_not_owner {state : LockState} {p : Point} (h : p.Fits state)
    (howner : p.isOwner = false) (state' : LockState) : p.Fits state' := by
  cases p with
  | holding => exact nomatch howner
  | checking => exact nomatch howner
  | releasing => exact nomatch howner
  | storing => exact nomatch howner
  | broken => exact h
  | _ => trivial

/-- An announcement takes nothing away from a thread. -/
theorem Point.Fits.announced {p : Point} (h : p.Fits .lockedNoWaiters) :
    p.Fits .lockedHasWaiters := by
  cases p with
  | holding => exact nofun
  | checking => exact nofun
  | releasing => exact nofun
  | storing => rfl
  | broken => exact h
  | _ => trivial

/-- What a thread relies on outlives the accesses of the others, as no other thread owns the lock
if this one does. -/
theorem Point.Fits.of_change {owner owner' : Bool} {state state' : LockState} {p : Point}
    (h : p.Fits state) (hchange : Change owner state state' owner')
    (hother : p.isOwner = true → owner = false) : p.Fits state' := by
  cases howner : p.isOwner with
  | false => exact h.of_not_owner howner state'
  | true =>
    have hlocked := h.locked howner
    have hquiet := hother howner
    cases hchange with
    | keep => exact h
    | take => exact absurd rfl hlocked
    | seize => exact absurd rfl hlocked
    | announce => exact h.announced
    | release => exact nomatch hquiet
    | store => exact nomatch hquiet

/-! ### One access at a time -/

section Access

variable {ι : Type} {m : Memory ι} {state : LockState} {p : Point}

/-- Whether a thread at a point, which does not own the lock, only looks: at what it is told to do,
at the word, or at the clock. -/
def Point.looks : Point → Bool
  | .idle | .planning _ | .spinning _ _ | .checkingClock _ => true
  | _ => false

theorem Point.not_owner_of_looks (hp : p.looks = true) : p.isOwner = false := by
  cases p with
  | holding => exact nomatch hp
  | checking => exact nomatch hp
  | releasing => exact nomatch hp
  | storing => exact nomatch hp
  | _ => rfl

/-- A look changes nothing but the point of its thread, which neither becomes an owner nor comes to
rely on anything. -/
theorem access_of_looks [DecidableEq ι] (t : ι) (choice : Choice) (m : Memory ι)
    (hp : p.looks = true) :
    ∃ p', access t choice m p = (m, p') ∧ p'.isOwner = false ∧ ∀ state, p'.Fits state := by
  cases p with
  | idle => cases choice <;> exact ⟨_, rfl, rfl, fun _ => trivial⟩
  | planning span =>
    cases choice with
    | read now =>
      rw [access]
      split
      · exact ⟨_, rfl, rfl, fun _ => trivial⟩
      · exact ⟨_, rfl, rfl, fun _ => trivial⟩
    | _ => exact ⟨_, rfl, rfl, fun _ => trivial⟩
  | spinning left w =>
    rw [access]
    split
    · split
      · exact ⟨_, rfl, rfl, fun _ => trivial⟩
      · exact ⟨_, rfl, rfl, fun _ => trivial⟩
    · exact ⟨_, rfl, rfl, fun _ => trivial⟩
  | checkingClock deadline =>
    cases choice with
    | read now =>
      rw [access]
      split
      · exact ⟨_, rfl, rfl, fun _ => trivial⟩
      · exact ⟨_, rfl, rfl, fun _ => trivial⟩
    | _ => exact ⟨_, rfl, rfl, fun _ => trivial⟩
  | _ => exact nomatch hp

/-- An access from a point leads to a memory and a point such that the word has changed as it may
and the thread has what it relies on. -/
def Lawful (state : LockState) (p : Point) (after : Memory ι × Point) : Prop :=
  ∃ state', after.1.lock = ofState state' ∧ after.2.Fits state' ∧
    Change p.isOwner state state' after.2.isOwner

/-- An access that does not write the word. -/
theorem Lawful.keep {m' : Memory ι} {p' : Point} (hlock : m'.lock = ofState state)
    (hfits : p'.Fits state) (howner : p'.isOwner = p.isOwner) : Lawful state p (m', p') := by
  refine ⟨state, hlock, hfits, ?_⟩
  rw [howner]
  exact .keep

theorem Lawful.look [DecidableEq ι] (hlock : m.lock = ofState state) (hp : p.looks = true)
    (t : ι) (choice : Choice) : Lawful state p (access t choice m p) := by
  obtain ⟨p', haccess, howner, hfits⟩ := access_of_looks t choice m hp
  rw [haccess]
  exact .keep hlock (hfits state) (howner.trans (Point.not_owner_of_looks hp).symm)

/-- A swap of the word. If it fails, the word was another one. -/
theorem Lawful.swap {expected new : LockState} {won lost : Point} (hlock : m.lock = ofState state)
    (hwon : state = expected → won.Fits new ∧ Change p.isOwner expected new won.isOwner)
    (hlost : state ≠ expected → lost.Fits state ∧ lost.isOwner = p.isOwner) :
    Lawful state p (m.after (m.lock.transition expected new) won lost) := by
  rw [hlock, transition_ofState]
  by_cases hstate : state = expected
  · obtain ⟨hfits, hchange⟩ := hwon hstate
    rw [if_pos hstate]
    refine ⟨new, rfl, hfits, ?_⟩
    rw [hstate]
    exact hchange
  · obtain ⟨hfits, howner⟩ := hlost hstate
    rw [if_neg hstate]
    exact .keep rfl hfits howner

/-- An attempt on the lock by a thread that does not own it. -/
theorem Lawful.attempt {new : LockState} {lost : Point} (hlock : m.lock = ofState state)
    (hp : p.isOwner = false) (htakes : Change false .unlocked new true)
    (hfits : lost.Fits state) (hlost : lost.isOwner = false) :
    Lawful state p (m.after (m.lock.transition .unlocked new) .holding lost) := by
  have hnew : new ≠ .unlocked := by
    cases htakes with
    | take => decide
    | seize => decide
  refine .swap hlock (fun _ => ⟨hnew, ?_⟩) fun _ => ⟨hfits, hlost.trans hp.symm⟩
  rw [hp]
  exact htakes

/-- An announcement, which may come too late or be made already. -/
theorem Lawful.announce {p' : Point} (hlock : m.lock = ofState state) (hp : p.isOwner = false)
    (hfits : ∀ state, p'.Fits state) (hp' : p'.isOwner = false) :
    Lawful state p ({ m with lock := m.lock.announce }, p') := by
  rw [hlock, Mutex.announce, transition_ofState]
  by_cases hstate : state = .lockedNoWaiters
  · rw [if_pos hstate]
    refine ⟨.lockedHasWaiters, rfl, hfits _, ?_⟩
    rw [hstate, hp, hp']
    exact .announce
  · rw [if_neg hstate]
    exact .keep rfl (hfits _) (hp'.trans hp.symm)

/-- Every access of a thread changes the word as it may, and leaves the thread with what it relies
on. -/
theorem lawful_access [DecidableEq ι] (t : ι) (choice : Choice) (hlock : m.lock = ofState state)
    (hfits : p.Fits state) : Lawful state p (access t choice m p) := by
  cases p with
  | idle => exact .look hlock rfl t choice
  | planning span => exact .look hlock rfl t choice
  | trying => exact .attempt hlock rfl .take trivial rfl
  | taking => exact .attempt hlock rfl .take trivial rfl
  | spinning left w => exact .look hlock rfl t choice
  | takingAgain w => exact .attempt hlock rfl .take trivial rfl
  | takingUntil deadline => exact .attempt hlock rfl .take trivial rfl
  | checkingClock deadline => exact .look hlock rfl t choice
  | announcing patience => exact .announce hlock rfl (fun _ => trivial) rfl
  | settling patience =>
    rw [access]
    split
    · exact .keep hlock trivial rfl
    · exact .keep hlock trivial rfl
  | asleep patience =>
    rw [access]
    split
    · exact .keep hlock trivial rfl
    · split
      · exact .keep hlock trivial rfl
      · exact .keep hlock trivial rfl
  | seizing patience =>
    cases patience with
    | unlimited => exact .attempt hlock rfl .seize trivial rfl
    | limited deadline left => exact .attempt hlock rfl .seize trivial rfl
  | holding =>
    rw [access]
    split
    · exact .keep hlock hfits rfl
    · exact .keep hlock hfits rfl
  | checking =>
    -- the check passes, because the lock of an owner is not free
    have hlocked : m.lock.state ≠ .unlocked := by
      rw [hlock, state_ofState]
      exact hfits
    rw [access, if_neg hlocked]
    exact .keep hlock hfits rfl
  | releasing =>
    refine .swap hlock (fun _ => ⟨trivial, .release⟩) fun hwaiters => ⟨?_, rfl⟩
    -- neither free nor without waiters, the word can only say that somebody waits
    cases state with
    | unlocked => exact absurd rfl hfits
    | lockedNoWaiters => exact absurd rfl hwaiters
    | lockedHasWaiters => rfl
  | storing =>
    obtain rfl : state = .lockedHasWaiters := hfits
    exact ⟨.unlocked, rfl, trivial, .store⟩
  | waking => exact .keep hlock trivial rfl
  | broken => exact hfits.elim

end Access

/-! ### Every schedule -/

section Run

variable {ι : Type} [DecidableEq ι]

/-- The word is one of the three, every thread has what it relies on, and the lock has at most one
owner, none exactly if it is free. -/
structure Owned (s : (code ι).State) : Prop where
  fits : ∃ state, s.memory.lock = ofState state ∧ ∀ t, (s.point t).Fits state
  exclusive : Program.Exclusive (fun m : Memory ι => decide (m.lock.state = .unlocked))
    Point.isOwner s

namespace Owned

theorem start : Owned (Program.start (code ι).toProgram) where
  fits := ⟨.unlocked, rfl, fun _ => trivial⟩
  exclusive := .start rfl rfl

/-- A move changes the word as it may. -/
theorem change {s : (code ι).State} (h : Owned s) (m : (code ι).Move) :
    Change (s.point m.1).isOwner s.memory.lock.state (Program.move s m).memory.lock.state
      ((Program.move s m).point m.1).isOwner := by
  obtain ⟨state, hlock, hfits⟩ := h.fits
  obtain ⟨state', hlock', -, hchange⟩ := lawful_access m.1 m.2 hlock (hfits m.1)
  rw [Program.move_memory, Program.move_point_self, hlock, state_ofState]
  rw [show ((code ι).step m.1 m.2 s.memory (s.point m.1)).1.lock = _ from hlock', state_ofState]
  exact hchange

theorem move {s : (code ι).State} (h : Owned s) (m : (code ι).Move) :
    Owned (Program.move s m) := by
  have hchange := h.change m
  refine ⟨?_, h.exclusive.move hchange.handover⟩
  obtain ⟨state, hlock, hfits⟩ := h.fits
  obtain ⟨state', hlock', hfits', hchange'⟩ := lawful_access m.1 m.2 hlock (hfits m.1)
  refine ⟨state', hlock', fun u => ?_⟩
  rcases eq_or_ne u m.1 with rfl | hne
  · rw [Program.move_point_self]
    exact hfits'
  · rw [Program.move_point_of_ne s hne]
    refine (hfits u).of_change hchange' fun hu => ?_
    exact h.exclusive.not_owner hu hne.symm

theorem run {s : (code ι).State} (h : Owned s) (schedule : List (code ι).Move) :
    Owned (Program.run s schedule) :=
  Program.run_of_step (fun _ m hs => hs.move m) h schedule

end Owned

/-- **The sleeping lock has one owner at a time.** After any schedule the word is one of the three,
at most one thread owns the lock, the word says "unlocked" exactly if none does, and no release
has found the lock unlocked. Whatever access comes next, it does not write the word, or it takes or
seizes the free lock for its own thread, or it announces a waiting thread, or it unlocks the lock
that its own thread owns. -/
theorem one_owner_at_a_time (schedule : List (code ι).Move) (m : (code ι).Move) :
    let s := Program.run (Program.start (code ι).toProgram) schedule
    let s' := Program.move s m
    (∃ state, s.memory.lock = ofState state) ∧
      (∀ t u, (s.point t).isOwner = true → (s.point u).isOwner = true → t = u) ∧
      (s.memory.lock = ofState .unlocked ↔ ∀ t, (s.point t).isOwner = false) ∧
      (∀ t, s.point t ≠ .broken) ∧
      Change (s.point m.1).isOwner s.memory.lock.state s'.memory.lock.state
        (s'.point m.1).isOwner := by
  intro s s'
  have howned : Owned s := Owned.start.run schedule
  obtain ⟨state, hlock, hfits⟩ := howned.fits
  refine ⟨⟨state, hlock⟩, fun t u => howned.exclusive.unique, ?_, fun t => (hfits t).ne_broken,
    howned.change m⟩
  rw [← howned.exclusive.free_iff, decide_eq_true_eq, hlock, state_ofState]
  refine ⟨fun hfree => ?_, fun hfree => congrArg ofState hfree⟩
  rw [← state_ofState state, hfree, state_ofState]

end Run

end Handoff.Mutex
