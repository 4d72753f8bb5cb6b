import Handoff.Proofs.Threads.Flow

/-!
# One producer and one consumer

The two sides of a ring run their calls access by access, in any order. What carries the proof is
that each side may know too little but nothing wrong. The producer knows of some of the pops, as
many as the index it has looked up stands for, and fills a slot only if those leave it room; more
pops can only leave more room (`Producer.mono`). Likewise the consumer takes a value only if the
pushes it knows of brought one (`Consumer.mono`). So the moves of one side never hurt the other,
and of its own moves each either stays within a call (`Inv.withinPush`, `Inv.withinPop`) or is the
one at which the call takes effect: a push at the change of `write` (`Inv.publish`), a pop at the
change of `read` (`Inv.vacate`).

The invariant `Inv` holds after every schedule (`Kept.run`), for rings of both kinds, and with it
`spsc_delivers_in_order`.
-/

namespace Handoff.RingCode

variable {α : Type}

/-! ### The invariant -/

/-- What the producer knows at a point, when it knows of `popped` pops. -/
def ProducerAt (kind : Kind) (capacity write readCopy : UInt64) (l : PushLog α)
    (received popped : Nat) : Point α → Prop
  | .idle | .pushed .accepted => True
  | .pushed (.refused value) => l.offered = some value ∧ l.wasFull = true
  | .pushing value => l.offered = some value
  | .pushCopy value i => l.offered = some value ∧ i = write ∧ kind = .cached
  | .pushLook value i => l.offered = some value ∧ i = write
  | .pushRenew value i j => l.offered = some value ∧ i = write ∧ kind = .cached ∧
      (∃ seen, popped ≤ seen ∧ seen ≤ received ∧ StandsFor capacity.toNat j seen) ∧
      (nextIndex i capacity = j → l.wasFull = true)
  | .pushAgain value i => l.offered = some value ∧ i = write ∧ kind = .cached ∧
      (nextIndex i capacity = readCopy → l.wasFull = true)
  | .filling value i | .publishing value i => l.offered = some value ∧ i = write ∧
      l.accepted.length + 1 < popped + capacity.toNat
  | _ => False

/-- What the consumer knows at a point, when it knows of `pushed` pushes. -/
def ConsumerAt (kind : Kind) (capacity read writeCopy : UInt64) (l : PopLog α)
    (accepted pushed : Nat) : Point α → Prop
  | .idle | .popped (some _) | .popping => True
  | .popped none => l.wasEmpty = true
  | .popCopy i => i = read ∧ kind = .cached
  | .popLook i => i = read
  | .popRenew i j => i = read ∧ kind = .cached ∧
      (∃ seen, pushed ≤ seen ∧ seen ≤ accepted ∧ StandsFor capacity.toNat j seen) ∧
      (i = j → l.wasEmpty = true)
  | .popAgain i => i = read ∧ kind = .cached ∧ (i = writeCopy → l.wasEmpty = true)
  | .taking i => i = read ∧ l.received.length < pushed
  | .vacating value i => i = read ∧ l.received.length < pushed ∧ value.isSome
  | _ => False

/-- The producer knows of some of the pops, and that is enough for the room it has used. -/
def Producer (kind : Kind) (capacity write readCopy : UInt64) (l : PushLog α) (received : Nat)
    (p : Point α) : Prop :=
  ∃ popped ≤ received, l.accepted.length < popped + capacity.toNat ∧
    (kind = .cached → StandsFor capacity.toNat readCopy popped) ∧
    ProducerAt kind capacity write readCopy l received popped p

/-- The consumer knows of some of the pushes, and of all whose values it has taken. -/
def Consumer (kind : Kind) (capacity read writeCopy : UInt64) (l : PopLog α) (accepted : Nat)
    (c : Point α) : Prop :=
  ∃ pushed ≤ accepted, l.received.length ≤ pushed ∧
    (kind = .cached → StandsFor capacity.toNat writeCopy pushed) ∧
    ConsumerAt kind capacity read writeCopy l accepted pushed c

/-- The invariant of a ring whose sides are at the points `p` and `c`. -/
structure Inv (kind : Kind) (capacity : UInt64) (r : CachedRing α) (p c : Point α)
    (pushes : PushLog α) (pops : PopLog α) : Prop where
  flow : ∃ inside, Flow capacity r.toRing p c pushes.accepted pops.received inside
  producer : Producer kind capacity r.write r.readCopy pushes pops.received.length p
  consumer : Consumer kind capacity r.read r.writeCopy pops pushes.accepted.length c
  full : p.inPush → isFull r.toRing → pushes.wasFull = true
  empty : c.inPop → isEmpty r.toRing → pops.wasEmpty = true

/-! ### Knowledge does not get wrong -/

section Stable

variable {kind : Kind} {capacity i j : UInt64} {p c : Point α}

/-- What the producer knows stays true while the consumer goes on. -/
theorem Producer.mono {l l' : PushLog α} {received received' : Nat}
    (h : Producer kind capacity i j l received p) (hreceived : received ≤ received')
    (hoffered : l'.offered = l.offered) (haccepted : l'.accepted = l.accepted)
    (hfull : l.wasFull = true → l'.wasFull = true) :
    Producer kind capacity i j l' received' p := by
  obtain ⟨popped, hle, hlt, hcopy, hat⟩ := h
  refine ⟨popped, Nat.le_trans hle hreceived, haccepted ▸ hlt, hcopy, ?_⟩
  cases p with
  | idle => trivial
  | pushed result =>
    cases result with
    | accepted => trivial
    | refused value => exact ⟨hoffered.trans hat.1, hfull hat.2⟩
  | pushing value => exact hoffered.trans hat
  | pushCopy value write => exact ⟨hoffered.trans hat.1, hat.2⟩
  | pushLook value write => exact ⟨hoffered.trans hat.1, hat.2⟩
  | pushRenew value write read =>
    obtain ⟨hoffer, hwrite, hkind, ⟨seen, hseen, hseen', hstands⟩, hsaw⟩ := hat
    exact ⟨hoffered.trans hoffer, hwrite, hkind,
      ⟨seen, hseen, Nat.le_trans hseen' hreceived, hstands⟩, fun e => hfull (hsaw e)⟩
  | pushAgain value write =>
    obtain ⟨hoffer, hwrite, hkind, hsaw⟩ := hat
    exact ⟨hoffered.trans hoffer, hwrite, hkind, fun e => hfull (hsaw e)⟩
  | filling value write => exact ⟨hoffered.trans hat.1, haccepted ▸ hat.2⟩
  | publishing value write => exact ⟨hoffered.trans hat.1, haccepted ▸ hat.2⟩
  | _ => exact hat.elim

/-- What the consumer knows stays true while the producer goes on. -/
theorem Consumer.mono {l l' : PopLog α} {accepted accepted' : Nat}
    (h : Consumer kind capacity i j l accepted c) (haccepted : accepted ≤ accepted')
    (hreceived : l'.received = l.received) (hempty : l.wasEmpty = true → l'.wasEmpty = true) :
    Consumer kind capacity i j l' accepted' c := by
  obtain ⟨pushed, hle, hge, hcopy, hat⟩ := h
  refine ⟨pushed, Nat.le_trans hle haccepted, hreceived ▸ hge, hcopy, ?_⟩
  cases c with
  | popped value =>
    cases value with
    | none => exact hempty hat
    | some value => trivial
  | popRenew read write =>
    obtain ⟨hread, hkind, ⟨seen, hseen, hseen', hstands⟩, hsaw⟩ := hat
    exact ⟨hread, hkind, ⟨seen, hseen, Nat.le_trans hseen' haccepted, hstands⟩,
      fun e => hempty (hsaw e)⟩
  | popAgain read =>
    obtain ⟨hread, hkind, hsaw⟩ := hat
    exact ⟨hread, hkind, fun e => hempty (hsaw e)⟩
  | taking read => exact ⟨hat.1, hreceived ▸ hat.2⟩
  | vacating value read => exact ⟨hat.1, hreceived ▸ hat.2⟩
  | _ => exact hat

end Stable

/-! ### Moves of the producer -/

section Producer

variable {kind : Kind} {capacity : UInt64} {r r' : CachedRing α} {p p' c : Point α}
  {pushes pushes' : PushLog α} {pops : PopLog α}

/-- After a move of the producer the consumer knows what it knew. -/
theorem Inv.afterProducer (h : Inv kind capacity r p c pushes pops)
    (hread : r'.read = r.read) (hcopy : r'.writeCopy = r.writeCopy)
    (hflow : ∃ inside, Flow capacity r'.toRing p' c pushes'.accepted pops.received inside)
    (hle : pushes.accepted.length ≤ pushes'.accepted.length)
    (hproducer : Producer kind capacity r'.write r'.readCopy pushes' pops.received.length p')
    (hfull : p'.inPush → isFull r'.toRing → pushes'.wasFull = true) :
    Inv kind capacity r' p' c pushes' (pops.note (isEmpty r'.toRing) c c) := by
  rw [pops.note_self]
  refine ⟨hflow, hproducer, ?_, hfull, fun hc hempty => ?_⟩
  · rw [hread, hcopy]
    exact h.consumer.mono hle rfl fun hwas => by rw [hwas, Bool.true_or]
  · rw [hc, hempty, Bool.and_self, Bool.or_true]

/-- A move within a push that is not the one by which it is accepted. -/
theorem Inv.withinPush (h : Inv kind capacity r p c pushes pops) (choice : Choice α)
    (hp : p.inPush = true) (hp' : p' ≠ .pushed .accepted)
    (hread : r'.read = r.read) (hcopy : r'.writeCopy = r.writeCopy)
    (hflow : ∃ inside, Flow capacity r'.toRing p' c pushes.accepted pops.received inside)
    (hproducer : Producer kind capacity r'.write r'.readCopy pushes pops.received.length p') :
    Inv kind capacity r' p' c (pushes.note (isFull r'.toRing) choice p p')
      (pops.note (isEmpty r'.toRing) c c) := by
  have hsees := pushes.wasFull_note (isFull r'.toRing) choice p p'
  obtain ⟨seen, hnote⟩ := pushes.exists_note_eq (isFull r'.toRing) choice hp hp'
  rw [hnote] at hsees ⊢
  refine h.afterProducer hread hcopy hflow (Nat.le_refl _) ?_ hsees
  exact hproducer.mono (Nat.le_refl _) rfl rfl fun hwas => by rw [hwas, Bool.true_or]

/-- A comparison with an index that stands for the pops the producer knows of. -/
theorem Producer.compareFull {l : PushLog α} {i j readCopy : UInt64} {received popped : Nat}
    {value : α} {full : Point α} (hpos : 0 < capacity)
    (hoffered : l.offered = some value) (hi : StandsFor capacity.toNat i l.accepted.length)
    (hj : StandsFor capacity.toNat j popped) (hpopped : popped ≤ received)
    (hreceived : received ≤ l.accepted.length)
    (hlt : l.accepted.length < popped + capacity.toNat)
    (hcopy : kind = .cached → StandsFor capacity.toNat readCopy popped)
    (hfull : nextIndex i capacity = j →
      ProducerAt kind capacity i readCopy l received popped full) :
    Producer kind capacity i readCopy l received
      (compareFull capacity value i j full) := by
  rw [RingCode.compareFull]
  split
  · next hmeet => exact ⟨popped, hpopped, hlt, hcopy, hfull hmeet⟩
  · next hroom =>
    refine ⟨popped, hpopped, hlt, hcopy, hoffered, rfl, ?_⟩
    have hturn : l.accepted.length + 1 ≠ popped + capacity.toNat := fun e =>
      hroom ((hj.turn_iff (hi.next hpos) (by omega) (by omega)).2 e)
    omega

/-- By a comparison no push is accepted. -/
theorem compareFull_ne {value : α} {i j : UInt64} {full : Point α}
    (hfull : full ≠ .pushed .accepted) :
    compareFull capacity value i j full ≠ .pushed .accepted := by
  rw [RingCode.compareFull]
  split
  · exact hfull
  · nofun

/-- By a comparison no value is put into a slot. -/
theorem pending_compareFull {value : α} {i j : UInt64} {full : Point α}
    (hfull : full.pending = []) : (compareFull capacity value i j full).pending = [] := by
  rw [RingCode.compareFull]
  split
  · exact hfull
  · rfl

/-- A producer without a push under way stays where it is or starts one. -/
theorem Inv.restProducer (h : Inv kind capacity r p c pushes pops) (choice : Choice α)
    (hp : p.inPush = false) :
    Inv kind capacity r (call .producer choice p) c
      (pushes.note (isFull r.toRing) choice p (call .producer choice p))
      (pops.note (isEmpty r.toRing) c c) := by
  obtain ⟨inside, hflow⟩ := h.flow
  have hstay : Inv kind capacity r p c (pushes.note (isFull r.toRing) choice p p)
      (pops.note (isEmpty r.toRing) c c) := by
    rw [pushes.note_self, hp, Bool.false_and, Bool.or_false]
    exact h.afterProducer rfl rfl ⟨inside, hflow⟩ (Nat.le_refl _) h.producer h.full
  cases choice with
  | push value =>
    have hpending : p.pending = [] := by
      cases p with
      | publishing value write => contradiction
      | _ => rfl
    have hnote : pushes.note (isFull r.toRing) (.push value) p (.pushing value) =
        { pushes with offered := some value, wasFull := isFull r.toRing } := by
      unfold PushLog.note
      rw [hp]
      rfl
    obtain ⟨popped, hpopped, hlt, hcopy, -⟩ := h.producer
    change Inv kind capacity r (.pushing value) c
      (pushes.note (isFull r.toRing) (.push value) p (.pushing value)) _
    rw [hnote]
    exact h.afterProducer rfl rfl ⟨inside, hflow.congr hpending.symm rfl⟩ (Nat.le_refl _)
      ⟨popped, hpopped, hlt, hcopy, rfl⟩ fun _ hfull => hfull
  | pop => exact hstay
  | proceed => exact hstay

/-- Filling a slot, which is behind the values inside. -/
theorem Inv.fill {value : α} {i : UInt64}
    (h : Inv kind capacity r (.filling value i) c pushes pops) (choice : Choice α) :
    Inv kind capacity { r with slots := r.slots.write i value } (.publishing value i) c
      (pushes.note (isFull r.toRing) choice (.filling value i) (.publishing value i))
      (pops.note (isEmpty r.toRing) c c) := by
  obtain ⟨inside, hflow⟩ := h.flow
  obtain ⟨popped, hpopped, hlt, hcopy, hoffered, rfl, hroom⟩ := h.producer
  have hlength := hflow.length_eq
  refine h.withinPush choice rfl nofun rfl rfl ⟨inside, ?_⟩
    ⟨popped, hpopped, hlt, hcopy, hoffered, rfl, hroom⟩
  -- nobody else fills slots, so the one at `write` is right behind the values inside
  have hslots := hflow.slots
  rw [show (Point.filling value r.write).pending = [] from rfl, List.append_nil] at hslots
  refine ⟨hflow.capacity_eq, hflow.order, hflow.write, hflow.read, ?_, ?_⟩
  · refine hslots.write ?_ (by omega) value
    rw [Nat.add_assoc, ← hlength]
    exact hflow.write
  · change pushes.accepted.length + 1 < _
    omega

/-- Publishing the value behind those inside, by which the push is accepted. -/
theorem Inv.publish {value : α} {i : UInt64}
    (h : Inv kind capacity r (.publishing value i) c pushes pops) (choice : Choice α) :
    Inv kind capacity { r with write := nextIndex i capacity } (.pushed .accepted) c
      (pushes.note (isFull { r.toRing with write := nextIndex i capacity }) choice
        (.publishing value i) (.pushed .accepted))
      (pops.note (isEmpty { r.toRing with write := nextIndex i capacity }) c c) := by
  obtain ⟨inside, hflow⟩ := h.flow
  obtain ⟨popped, hpopped, hlt, hcopy, hoffered, rfl, hroom⟩ := h.producer
  have hnote (full : Bool) : pushes.note full choice (.publishing value r.write)
      (.pushed .accepted) = { pushes with accepted := pushes.accepted ++ [value] } := by
    change { pushes with accepted := pushes.accepted ++ pushes.offered.toList } = _
    rw [hoffered]
    rfl
  have hmore : (pushes.accepted ++ [value]).length = pushes.accepted.length + 1 :=
    List.length_append
  rw [hnote]
  refine h.afterProducer rfl rfl ⟨inside ++ [value], ?_⟩ (by rw [hmore]; exact Nat.le_succ _)
    ⟨popped, hpopped, by rwa [hmore], hcopy, trivial⟩ nofun
  refine ⟨hflow.capacity_eq, ?_, ?_, hflow.read, ?_, ?_⟩
  · rw [hflow.order, List.append_assoc, List.append_assoc]
  · rw [hmore]
    exact hflow.write.next hflow.pos
  · change r.slots.Holds _ _ (inside ++ [value] ++ [])
    rw [List.append_nil]
    exact hflow.slots
  · rw [hmore]
    exact hflow.room

/-- A move of the producer. -/
theorem Inv.produce (h : Inv kind capacity r p c pushes pops) (choice : Choice α) :
    Inv kind capacity (access kind .producer choice r p).1 (access kind .producer choice r p).2 c
      (pushes.note (isFull (access kind .producer choice r p).1.toRing) choice p
        (access kind .producer choice r p).2)
      (pops.note (isEmpty (access kind .producer choice r p).1.toRing) c c) := by
  obtain ⟨inside, hflow⟩ := h.flow
  obtain ⟨popped, hpopped, hlt, hcopy, hat⟩ := h.producer
  obtain rfl : r.capacity = capacity := hflow.capacity_eq
  have hlength := hflow.length_eq
  cases p with
  | idle => exact h.restProducer choice rfl
  | pushed result => exact h.restProducer choice rfl
  | pushing value =>
    cases kind with
    | plain =>
      exact h.withinPush choice rfl nofun rfl rfl ⟨inside, hflow.congr rfl rfl⟩
        ⟨popped, hpopped, hlt, hcopy, hat, rfl⟩
    | cached =>
      exact h.withinPush choice rfl nofun rfl rfl ⟨inside, hflow.congr rfl rfl⟩
        ⟨popped, hpopped, hlt, hcopy, hat, rfl, rfl⟩
  | pushCopy value i =>
    -- the copy stands for the pops that are known; if it says full, that decides nothing yet
    obtain ⟨hoffered, rfl, hkind⟩ := hat
    refine h.withinPush choice rfl (compareFull_ne nofun) rfl rfl
      ⟨inside, hflow.congr (pending_compareFull rfl) rfl⟩ ?_
    exact Producer.compareFull hflow.pos hoffered hflow.write (hcopy hkind) hpopped (by omega) hlt
      hcopy fun _ => ⟨hoffered, rfl⟩
  | pushLook value i =>
    obtain ⟨hoffered, rfl⟩ := hat
    cases kind with
    | plain =>
      -- from here on all pops are known, and the ring is full now if the indices say so
      refine h.withinPush choice rfl (compareFull_ne nofun) rfl rfl
        ⟨inside, hflow.congr (pending_compareFull rfl) rfl⟩ ?_
      exact Producer.compareFull hflow.pos hoffered hflow.write hflow.read (Nat.le_refl _)
        (by omega) (by omega) nofun
        fun hmeet => ⟨hoffered, h.full rfl (hflow.next_eq_read_iff.1 hmeet)⟩
    | cached =>
      exact h.withinPush choice rfl nofun rfl rfl ⟨inside, hflow.congr rfl rfl⟩
        ⟨popped, hpopped, hlt, hcopy, hoffered, rfl, rfl,
          ⟨_, hpopped, Nat.le_refl _, hflow.read⟩,
          fun hmeet => h.full rfl (hflow.next_eq_read_iff.1 hmeet)⟩
  | pushRenew value i j =>
    -- the pops that are known become those of the look, not those of now
    obtain ⟨hoffered, rfl, hkind, ⟨seen, hseen, hseen', hstands⟩, hsaw⟩ := hat
    exact h.withinPush choice rfl nofun rfl rfl ⟨inside, hflow.congr rfl rfl⟩
      ⟨seen, hseen', by omega, fun _ => hstands, hoffered, rfl, hkind, hsaw⟩
  | pushAgain value i =>
    obtain ⟨hoffered, rfl, hkind, hsaw⟩ := hat
    refine h.withinPush choice rfl (compareFull_ne nofun) rfl rfl
      ⟨inside, hflow.congr (pending_compareFull rfl) rfl⟩ ?_
    exact Producer.compareFull hflow.pos hoffered hflow.write (hcopy hkind) hpopped (by omega) hlt
      hcopy fun hmeet => ⟨hoffered, hsaw hmeet⟩
  | filling value i => exact h.fill choice
  | publishing value i => exact h.publish choice
  | _ => exact hat.elim

end Producer

/-! ### Moves of the consumer -/

section Consumer

variable {kind : Kind} {capacity : UInt64} {r r' : CachedRing α} {p c c' : Point α}
  {pushes : PushLog α} {pops pops' : PopLog α}

/-- After a move of the consumer the producer knows what it knew. -/
theorem Inv.afterConsumer (h : Inv kind capacity r p c pushes pops) (choice : Choice α)
    (hwrite : r'.write = r.write) (hcopy : r'.readCopy = r.readCopy)
    (hflow : ∃ inside, Flow capacity r'.toRing p c' pushes.accepted pops'.received inside)
    (hle : pops.received.length ≤ pops'.received.length)
    (hconsumer : Consumer kind capacity r'.read r'.writeCopy pops' pushes.accepted.length c')
    (hempty : c'.inPop → isEmpty r'.toRing → pops'.wasEmpty = true) :
    Inv kind capacity r' p c' (pushes.note (isFull r'.toRing) choice p p) pops' := by
  rw [pushes.note_self]
  refine ⟨hflow, ?_, hconsumer, fun hp hfull => ?_, hempty⟩
  · rw [hwrite, hcopy]
    exact h.producer.mono hle rfl rfl fun hwas => by rw [hwas, Bool.true_or]
  · rw [hp, hfull, Bool.and_self, Bool.or_true]

/-- A move within a pop that is not the one by which it returns a value. -/
theorem Inv.withinPop (h : Inv kind capacity r p c pushes pops) (choice : Choice α)
    (hc : c.inPop = true) (hc' : ∀ value, c' ≠ .popped (some value))
    (hwrite : r'.write = r.write) (hcopy : r'.readCopy = r.readCopy)
    (hflow : ∃ inside, Flow capacity r'.toRing p c' pushes.accepted pops.received inside)
    (hconsumer : Consumer kind capacity r'.read r'.writeCopy pops pushes.accepted.length c') :
    Inv kind capacity r' p c' (pushes.note (isFull r'.toRing) choice p p)
      (pops.note (isEmpty r'.toRing) c c') := by
  have hsees := pops.wasEmpty_note (isEmpty r'.toRing) c c'
  obtain ⟨seen, hnote⟩ := pops.exists_note_eq (isEmpty r'.toRing) hc hc'
  rw [hnote] at hsees ⊢
  refine h.afterConsumer choice hwrite hcopy hflow (Nat.le_refl _) ?_ hsees
  exact hconsumer.mono (Nat.le_refl _) rfl fun hwas => by rw [hwas, Bool.true_or]

/-- A comparison with an index that stands for the pushes the consumer knows of. -/
theorem Consumer.compareEmpty {l : PopLog α} {i j writeCopy : UInt64} {accepted pushed : Nat}
    {empty : Point α} (hi : StandsFor capacity.toNat i l.received.length)
    (hj : StandsFor capacity.toNat j pushed) (hpushed : pushed ≤ accepted)
    (hle : l.received.length ≤ pushed) (hlt : accepted < l.received.length + capacity.toNat)
    (hcopy : kind = .cached → StandsFor capacity.toNat writeCopy pushed)
    (hempty : i = j → ConsumerAt kind capacity i writeCopy l accepted pushed empty) :
    Consumer kind capacity i writeCopy l accepted (compareEmpty i j empty) := by
  rw [RingCode.compareEmpty]
  split
  · next hmeet => exact ⟨pushed, hpushed, hle, hcopy, hempty hmeet⟩
  · next hvalue =>
    refine ⟨pushed, hpushed, hle, hcopy, rfl, Nat.lt_of_le_of_ne hle fun e => ?_⟩
    exact hvalue ((hi.eq_iff hj hle (by omega)).2 e)

/-- By a comparison no pop returns a value. -/
theorem compareEmpty_ne {i j : UInt64} {empty : Point α}
    (hempty : ∀ value, empty ≠ .popped (some value)) (value : α) :
    compareEmpty i j empty ≠ .popped (some value) := by
  rw [RingCode.compareEmpty]
  split
  · exact hempty value
  · nofun

/-- By a comparison no value is taken out of a slot. -/
theorem held_compareEmpty {i j : UInt64} {empty : Point α} (hempty : empty.held = []) :
    (compareEmpty i j empty).held = [] := by
  rw [RingCode.compareEmpty]
  split
  · exact hempty
  · rfl

/-- A consumer without a pop under way stays where it is or starts one. -/
theorem Inv.restConsumer (h : Inv kind capacity r p c pushes pops) (choice : Choice α)
    (hc : c.inPop = false) :
    Inv kind capacity r p (call .consumer choice c)
      (pushes.note (isFull r.toRing) choice p p)
      (pops.note (isEmpty r.toRing) c (call .consumer choice c)) := by
  obtain ⟨inside, hflow⟩ := h.flow
  have hstay : Inv kind capacity r p c (pushes.note (isFull r.toRing) choice p p)
      (pops.note (isEmpty r.toRing) c c) := by
    rw [pops.note_self, hc, Bool.false_and, Bool.or_false]
    exact h.afterConsumer choice rfl rfl ⟨inside, hflow⟩ (Nat.le_refl _) h.consumer h.empty
  cases choice with
  | push value => exact hstay
  | pop =>
    have hheld : c.held = [] := by
      cases c with
      | vacating value read => contradiction
      | _ => rfl
    have hnote : pops.note (isEmpty r.toRing) c .popping =
        { pops with wasEmpty := isEmpty r.toRing } := by
      unfold PopLog.note
      rw [hc]
      rfl
    obtain ⟨pushed, hpushed, hle, hcopy, -⟩ := h.consumer
    change Inv kind capacity r p .popping _ (pops.note (isEmpty r.toRing) c .popping)
    rw [hnote]
    exact h.afterConsumer .pop rfl rfl ⟨inside, hflow.congr rfl hheld.symm⟩ (Nat.le_refl _)
      ⟨pushed, hpushed, hle, hcopy, trivial⟩ fun _ hempty => hempty
  | proceed => exact hstay

/-- Taking the oldest value inside out of its slot. -/
theorem Inv.take {i : UInt64} (h : Inv kind capacity r p (.taking i) pushes pops)
    (choice : Choice α) :
    Inv kind capacity { r with slots := r.slots.clear i } p (.vacating (r.slots.get? i) i)
      (pushes.note (isFull r.toRing) choice p p)
      (pops.note (isEmpty r.toRing) (.taking i) (.vacating (r.slots.get? i) i)) := by
  obtain ⟨inside, hflow⟩ := h.flow
  obtain ⟨pushed, hpushed, hle, hcopy, rfl, hlt⟩ := h.consumer
  have hlength := hflow.length_eq
  have hroom := hflow.room
  have hslots := hflow.slots
  change pushes.accepted.length = pops.received.length + (0 + inside.length) at hlength
  change r.slots.Holds capacity.toNat pops.received.length (inside ++ p.pending) at hslots
  -- the comparison let the pop through, so there is a value to take
  obtain _ | ⟨value, rest⟩ := inside
  · rw [List.length_nil] at hlength
    omega
  rw [List.length_cons] at hlength
  rw [List.cons_append] at hslots
  have hvalue : r.slots.get? r.read = some value :=
    hslots.get?_eq (k := 0) hflow.read (by omega)
  rw [hvalue]
  refine h.withinPop choice rfl nofun rfl rfl ⟨rest, ?_⟩
    ⟨pushed, hpushed, hle, hcopy, rfl, hlt, rfl⟩
  refine ⟨hflow.capacity_eq, hflow.order, hflow.write, hflow.read, ?_, hroom⟩
  refine hslots.clear hflow.read ?_
  rw [List.length_append]
  omega

/-- Giving the slot of the value in hand back, by which the pop returns it. -/
theorem Inv.vacate {value : Option α} {i : UInt64}
    (h : Inv kind capacity r p (.vacating value i) pushes pops) (choice : Choice α) :
    Inv kind capacity { r with read := nextIndex i capacity } p (.popped value)
      (pushes.note (isFull { r.toRing with read := nextIndex i capacity }) choice p p)
      (pops.note (isEmpty { r.toRing with read := nextIndex i capacity }) (.vacating value i)
        (.popped value)) := by
  obtain ⟨inside, hflow⟩ := h.flow
  obtain ⟨pushed, hpushed, hle, hcopy, rfl, hlt, hsome⟩ := h.consumer
  obtain ⟨value, rfl⟩ := Option.isSome_iff_exists.1 hsome
  have hmore : (pops.received ++ [value]).length = pops.received.length + 1 :=
    List.length_append
  change Inv _ _ _ _ _ _ { pops with received := pops.received ++ [value] }
  refine h.afterConsumer choice rfl rfl ⟨inside, ?_⟩ (by rw [hmore]; exact Nat.le_succ _)
    ⟨pushed, hpushed, by rwa [hmore], hcopy, trivial⟩ nofun
  refine ⟨hflow.capacity_eq, ?_, hflow.write, ?_, ?_, ?_⟩
  · rw [List.append_assoc]
    exact hflow.order
  · rw [hmore]
    exact hflow.read.next hflow.pos
  · rw [hmore]
    exact hflow.slots
  · rw [hmore]
    have := hflow.room
    omega

/-- A move of the consumer. -/
theorem Inv.consume (h : Inv kind capacity r p c pushes pops) (choice : Choice α) :
    Inv kind capacity (access kind .consumer choice r c).1 p (access kind .consumer choice r c).2
      (pushes.note (isFull (access kind .consumer choice r c).1.toRing) choice p p)
      (pops.note (isEmpty (access kind .consumer choice r c).1.toRing) c
        (access kind .consumer choice r c).2) := by
  obtain ⟨inside, hflow⟩ := h.flow
  obtain ⟨pushed, hpushed, hle, hcopy, hat⟩ := h.consumer
  obtain rfl : r.capacity = capacity := hflow.capacity_eq
  have hlength := hflow.length_eq
  have hroom := hflow.room
  cases c with
  | idle => exact h.restConsumer choice rfl
  | popped result => exact h.restConsumer choice rfl
  | popping =>
    cases kind with
    | plain =>
      exact h.withinPop choice rfl nofun rfl rfl ⟨inside, hflow.congr rfl rfl⟩
        ⟨pushed, hpushed, hle, hcopy, rfl⟩
    | cached =>
      exact h.withinPop choice rfl nofun rfl rfl ⟨inside, hflow.congr rfl rfl⟩
        ⟨pushed, hpushed, hle, hcopy, rfl, rfl⟩
  | popCopy i =>
    -- the copy stands for the pushes that are known; if it says empty, that decides nothing yet
    obtain ⟨rfl, hkind⟩ := hat
    refine h.withinPop choice rfl (compareEmpty_ne nofun) rfl rfl
      ⟨inside, hflow.congr rfl (held_compareEmpty rfl)⟩ ?_
    exact Consumer.compareEmpty hflow.read (hcopy hkind) hpushed hle (by omega) hcopy fun _ => rfl
  | popLook i =>
    obtain rfl := hat
    cases kind with
    | plain =>
      -- from here on all pushes are known, and the ring is empty now if the indices say so
      refine h.withinPop choice rfl (compareEmpty_ne nofun) rfl rfl
        ⟨inside, hflow.congr rfl (held_compareEmpty rfl)⟩ ?_
      exact Consumer.compareEmpty hflow.read hflow.write (Nat.le_refl _) (by omega) (by omega) nofun
        fun hmeet => h.empty rfl (hflow.read_eq_write_iff.1 hmeet)
    | cached =>
      exact h.withinPop choice rfl nofun rfl rfl ⟨inside, hflow.congr rfl rfl⟩
        ⟨pushed, hpushed, hle, hcopy, rfl, rfl, ⟨_, hpushed, Nat.le_refl _, hflow.write⟩,
          fun hmeet => h.empty rfl (hflow.read_eq_write_iff.1 hmeet)⟩
  | popRenew i j =>
    -- the pushes that are known become those of the look, not those of now
    obtain ⟨rfl, hkind, ⟨seen, hseen, hseen', hstands⟩, hsaw⟩ := hat
    exact h.withinPop choice rfl nofun rfl rfl ⟨inside, hflow.congr rfl rfl⟩
      ⟨seen, hseen', Nat.le_trans hle hseen, fun _ => hstands, rfl, hkind, hsaw⟩
  | popAgain i =>
    obtain ⟨rfl, hkind, hsaw⟩ := hat
    refine h.withinPop choice rfl (compareEmpty_ne nofun) rfl rfl
      ⟨inside, hflow.congr rfl (held_compareEmpty rfl)⟩ ?_
    exact Consumer.compareEmpty hflow.read (hcopy hkind) hpushed hle (by omega) hcopy hsaw
  | taking i => exact h.take choice
  | vacating value i => exact h.vacate choice
  | _ => exact hat.elim

end Consumer

/-! ### Every schedule -/

section Run

variable {kind : Kind} {capacity : UInt64}

/-- The invariant of a state and the journal kept up to it. -/
def Kept (s : (code α kind capacity).State) (j : Journal α) : Prop :=
  Inv kind capacity s.memory (s.point .producer) (s.point .consumer) j.pushes j.pops

theorem kept_start (hpos : 0 < capacity) :
    Kept (Program.start (code α kind capacity)) Journal.blank := by
  have hlt : 0 < capacity.toNat := UInt64.lt_iff_toNat_lt.1 hpos
  refine ⟨⟨[], rfl, rfl, .zero _, .zero _, Slots.holds_empty capacity, ?_⟩,
    ⟨0, Nat.le_refl _, ?_, fun _ => .zero _, trivial⟩,
    ⟨0, Nat.le_refl _, Nat.le_refl _, fun _ => .zero _, trivial⟩, nofun, nofun⟩
  · change 0 < 0 + capacity.toNat
    omega
  · change 0 < 0 + capacity.toNat
    omega

/-- The invariant survives a move of either side. -/
theorem Kept.move {s : (code α kind capacity).State} {j : Journal α} (h : Kept s j)
    (m : (code α kind capacity).Move) :
    Kept (Program.move s m) (j.note m.2 s (Program.move s m)) := by
  obtain ⟨side, choice⟩ := m
  cases side with
  | producer => exact Inv.produce h choice
  | consumer => exact Inv.consume h choice

theorem Kept.run {s : (code α kind capacity).State} {j : Journal α} (h : Kept s j)
    (schedule : List (code α kind capacity).Move) :
    Kept (Program.run s schedule) (j.keep s schedule) := by
  induction schedule generalizing s j with
  | nil => exact h
  | cons m schedule ih => exact ih (h.move m)

/-- The slot to be filled is not the one to be taken from. -/
theorem Inv.filling_ne_taking {r : CachedRing α} {pushes : PushLog α} {pops : PopLog α}
    {value : α} {i j : UInt64} (h : Inv kind capacity r (.filling value i) (.taking j) pushes pops) :
    i ≠ j := by
  obtain ⟨inside, hflow⟩ := h.flow
  obtain ⟨popped, -, -, -, -, rfl, -⟩ := h.producer
  obtain ⟨pushed, hpushed, -, -, rfl, hlt⟩ := h.consumer
  -- the indices would meet only in an empty ring, but there is a value to take
  intro hmeet
  have := hflow.isEmpty_iff.1 (hflow.read_eq_write_iff.1 hmeet.symm)
  omega

/-- **One producer and one consumer need no lock.** After any schedule, the values that pops have
returned are the first ones of those that pushes have left in the ring; those that are missing are
the one that a pop has in hand, if any, and the ones in the ring. A push that was refused has its
value back, and at some instant of it the ring was full; at some instant of a pop that found
nothing the ring was empty. The two sides are never about to use the same slot. -/
theorem spsc_delivers_in_order (kind : Kind) {capacity : UInt64} (hpos : 0 < capacity)
    (schedule : List (code α kind capacity).Move) :
    let s := Program.run (Program.start (code α kind capacity)) schedule
    let j := Journal.blank.keep (Program.start (code α kind capacity)) schedule
    j.pops.received <+: j.pushes.accepted ∧
      j.pushes.accepted =
        j.pops.received ++ ((s.point .consumer).held ++ (Journal.ring s).toList) ∧
      j.pushes.accepted.length = j.pops.received.length + (Journal.ring s).size ∧
      (∀ value, s.point .producer = .pushed (.refused value) →
        j.pushes.offered = some value ∧ j.pushes.wasFull = true) ∧
      (s.point .consumer = .popped none → j.pops.wasEmpty = true) ∧
      ∀ value i i', s.point .producer = .filling value i → s.point .consumer = .taking i' →
        i ≠ i' := by
  intro s j
  have hkept : Kept s j := (kept_start hpos).run schedule
  obtain ⟨inside, hflow⟩ := hkept.flow
  have hlength := hflow.length_eq
  refine ⟨⟨_, hflow.order.symm⟩, ?_, ?_, fun value hpoint => ?_, fun hpoint => ?_,
    fun value i i' hproducer hconsumer => ?_⟩
  · rw [show (Journal.ring s).toList = inside from hflow.toList_eq]
    exact hflow.order
  · rw [show (Journal.ring s).size = _ from hflow.size_eq]
    omega
  · obtain ⟨_, -, -, -, hat⟩ := hkept.producer
    rw [hpoint] at hat
    exact hat
  · obtain ⟨_, -, -, -, hat⟩ := hkept.consumer
    rw [hpoint] at hat
    exact hat
  · unfold Kept at hkept
    rw [hproducer, hconsumer] at hkept
    exact hkept.filling_ne_taking

/-- A push that is refused although a pop made room after it had looked. -/
theorem spsc_delivers_in_order_two :
    let steps (side : Side) (n : Nat) : List (code Nat .cached 2).Move :=
      List.replicate n (side, .proceed)
    let schedule : List (code Nat .cached 2).Move :=
      (.producer, .push 1) :: steps .producer 4 ++ (.producer, .push 2) :: steps .producer 3 ++
        (.consumer, .pop) :: steps .consumer 7 ++ steps .producer 2
    let s := Program.run (Program.start (code Nat .cached 2)) schedule
    let j := Journal.blank.keep (Program.start (code Nat .cached 2)) schedule
    (0 : UInt64) < 2 ∧ s.point .producer = .pushed (.refused 2) ∧
      s.point .consumer = .popped (some 1) ∧ j.pushes.offered = some 2 ∧
      j.pushes.wasFull = true ∧ [1] <+: j.pushes.accepted := by
  intro steps schedule s j
  obtain ⟨horder, -, -, hrefused, -⟩ :=
    spsc_delivers_in_order .cached (by decide : (0 : UInt64) < 2) schedule
  have hpoint : s.point .producer = .pushed (.refused 2) := rfl
  have hreceived : j.pops.received = [1] := rfl
  exact ⟨by decide, hpoint, rfl, (hrefused 2 hpoint).1, (hrefused 2 hpoint).2,
    hreceived ▸ horder⟩

end Run

end Handoff.RingCode
