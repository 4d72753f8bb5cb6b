import Handoff.Lock.Flag
import Handoff.Proofs.Lock.Custody

/-!
# The custody of the flag lock

The flag tells no more of a line than whether there is one, and that is all the flag lock needs: the
flag is up exactly while the line is not empty (`FlagLock.Shows`).
-/

namespace Handoff.FlagLock

/-- The flag is up exactly if somebody is in the line. -/
def Shows (l : FlagLock) (line : List Unit) : Prop := l.raised = !line.isEmpty

variable {l : FlagLock} {pass : Unit} {line : List Unit}

theorem Shows.raise_nil (h : l.Shows []) : l.raise = (true, ⟨true⟩) := by
  rw [raise, h]
  rfl

theorem Shows.raise_cons (h : l.Shows (pass :: line)) : l.raise = (false, l) := by
  rw [raise, h]
  rfl

theorem Shows.unlock_nil (h : l.Shows []) : l.unlock = .error .flagDown := by
  rw [unlock, h]
  rfl

theorem Shows.unlock_cons (h : l.Shows (pass :: line)) : l.unlock = .ok ⟨false⟩ := by
  rw [unlock, h]
  rfl

/-- The line behind the flag. The number of passes does not matter. -/
def custody : Custody raw where
  Room _ := True
  Holds _ := Shows
  new := rfl
  locked h := h
  lock {n l line} h _ := by
    cases line with
    | nil => simp only [raw, h.raise_nil]; exact ⟨rfl, rfl⟩
    | cons pass line => simp only [raw, h.raise_cons]; exact ⟨rfl, h⟩
  tryLock_nil h _ := ⟨(), ⟨true⟩, by simp only [raw, h.raise_nil]; rfl, rfl⟩
  tryLock_cons h := by simp only [raw, h.raise_cons]; rfl
  unlock_last h := ⟨⟨⟨false⟩, true⟩, by simp only [raw, h.unlock_cons]; rfl, rfl⟩
  unlock_next h := ⟨⟨⟨false⟩, true⟩, ⟨true⟩, by simp only [raw, h.unlock_cons]; rfl, rfl, rfl, rfl⟩
  unlockUnheld {n l call} h hcall := by
    obtain rfl := Option.some.inj hcall
    exact ⟨.flagDown, by simp only [h.unlock_nil]; rfl, rfl⟩

end Handoff.FlagLock
