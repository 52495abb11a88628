/-!
# Results that can fail

A chain of steps succeeds when all of them do, and fails with the first fault met.  Renaming the
faults of a result changes nothing else.
-/

namespace ClosureCapture

variable {Fault Other First Second : Type}

theorem bind_eq_ok_iff {first : Except Fault First} {next : First → Except Fault Second}
    {result : Second} :
    first >>= next = .ok result ↔ ∃ value, first = .ok value ∧ next value = .ok result := by
  cases first <;> simp [bind, Except.bind]

theorem bind_eq_error_iff {first : Except Fault First} {next : First → Except Fault Second}
    {fault : Fault} :
    first >>= next = .error fault ↔
      first = .error fault ∨ ∃ value, first = .ok value ∧ next value = .error fault := by
  cases first <;> simp [bind, Except.bind]

theorem map_eq_ok_iff {found : Except Fault First} {change : First → Second} {result : Second} :
    found.map change = .ok result ↔ ∃ value, found = .ok value ∧ change value = result := by
  cases found <;> simp [Except.map]

theorem map_eq_error_iff {found : Except Fault First} {change : First → Second} {fault : Fault} :
    found.map change = .error fault ↔ found = .error fault := by
  cases found <;> simp [Except.map]

@[simp]
theorem mapError_ok (change : Fault → Other) (value : First) :
    (.ok value : Except Fault First).mapError change = .ok value :=
  rfl

@[simp]
theorem mapError_error (change : Fault → Other) (fault : Fault) :
    (.error fault : Except Fault First).mapError change = .error (change fault) :=
  rfl

theorem mapError_eq_ok_iff {found : Except Fault First} {change : Fault → Other}
    {value : First} : found.mapError change = .ok value ↔ found = .ok value := by
  cases found <;> simp

theorem mapError_eq_error_iff {found : Except Fault First} {change : Fault → Other}
    {other : Other} :
    found.mapError change = .error other ↔ ∃ fault, found = .error fault ∧ change fault = other := by
  cases found <;> simp

end ClosureCapture
