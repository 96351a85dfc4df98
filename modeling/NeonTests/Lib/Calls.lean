import NeonTests.Lib.Fallible

/-!
# Calls — steps that happen entirely or not at all

A call that fails leaves the state as it was.

* `returned` — the calls of a run that took effect, in order;
* `applyAll_induction` — the invariant rule; the invariant may speak of the calls that
  took effect so far.
-/

namespace Calls

variable {ε σ γ : Type}

section

variable (exec : γ → σ → Except ε σ)

def apply (s : σ) (c : γ) : σ :=
  match exec c s with
  | .ok s' => s'
  | .error _ => s

def applyAll (calls : List γ) (s : σ) : σ := calls.foldl (apply exec) s

def returned : List γ → σ → List γ
  | [], _ => []
  | c :: calls, s =>
    match exec c s with
    | .ok s' => c :: returned calls s'
    | .error _ => returned calls s

end

variable {exec : γ → σ → Except ε σ} {s s' : σ} {c : γ} {calls : List γ}

theorem apply_of_ok (h : exec c s = .ok s') : apply exec s c = s' := by simp [apply, h]

theorem apply_of_error {e : ε} (h : exec c s = .error e) : apply exec s c = s := by
  simp [apply, h]

theorem returned_append (past rest : List γ) (s : σ) :
    returned exec (past ++ rest) s =
      returned exec past s ++ returned exec rest (applyAll exec past s) := by
  induction past generalizing s with
  | nil => rfl
  | cons c past ih =>
    show _ = _ ++ returned exec rest (applyAll exec past (apply exec s c))
    rcases hexec : exec c s with e | t'
    · simpa [returned, hexec, apply_of_error hexec] using ih s
    · simpa [returned, hexec, apply_of_ok hexec] using ih t'

/-- **Invariants.** -/
theorem applyAll_induction (I : List γ → σ → Prop) (hinit : I [] s)
    (hstep : ∀ past c t t', I past t → exec c t = .ok t' → I (past ++ [c]) t') :
    I (returned exec calls s) (applyAll exec calls s) := by
  suffices h : ∀ past t, I past t → I (past ++ returned exec calls t) (applyAll exec calls t) from
    h [] s hinit
  clear hinit
  induction calls with
  | nil => simp [returned, applyAll]
  | cons c calls ih =>
    intro past t hI
    show I _ (applyAll exec calls (apply exec t c))
    rcases hexec : exec c t with e | t'
    · simpa [returned, hexec, apply_of_error hexec] using ih past t hI
    · simpa [returned, hexec, apply_of_ok hexec] using ih _ t' (hstep past c t t' hI hexec)

end Calls
