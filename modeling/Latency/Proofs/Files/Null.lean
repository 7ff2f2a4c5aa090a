import Mathlib.Tactic.Common
import Latency.Files
/-!
# Null characters in paths

A path with a null character in it is never handed to the system: that is the one way in which a
path can fail to be read or to be made absolute without the files having a say.
-/

namespace Latency

theorem Text.holdsNul_iff {s : String} : Text.holdsNul s = true ↔ '\x00' ∈ s.toList := by
  exact List.contains_iff_mem

namespace Files

variable {fs : Files} {p : Path} {why : FileError}

theorem resolve_error (h : fs.resolve p = .error why) :
    holdsNul (fs.base.join p) = true ∧ why = .badPath := by
  unfold resolve at h
  split at h
  · next hnul => exact ⟨hnul, (Except.error.inj h).symm⟩
  · cases h

theorem executable_error {cmd : String} (h : fs.executable cmd = .error why) :
    holdsNul (fs.base.join (Path.ofString cmd)) = true ∧ why = .badPath := by
  unfold executable at h
  split at h
  · cases h
  split at h
  · cases hresolve : fs.resolve (Path.ofString cmd) with
    | error why' =>
      rw [hresolve] at h
      obtain rfl := Except.error.inj h
      exact resolve_error hresolve
    | ok p =>
      rw [hresolve] at h
      cases h
  · cases h

end Files

end Latency
