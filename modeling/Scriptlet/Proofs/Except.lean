/-! A mapped result succeeds or fails as the result itself does. -/
namespace Except

variable {α β failure other : Type}

theorem ok_of_map {change : α → β} {result : Except failure α} {value : β}
    (success : result.map change = .ok value) :
    ∃ found, result = .ok found ∧ change found = value := by
  cases result with
  | error error => cases success
  | ok found => exact ⟨found, rfl, Except.ok.inj success⟩

theorem error_of_map {change : α → β} {result : Except failure α} {error : failure}
    (failed : result.map change = .error error) : result = .error error := by
  cases result with
  | ok found => cases failed
  | error first => exact congrArg _ (Except.error.inj failed)

theorem ok_of_mapError {change : failure → other} {result : Except failure α} {value : α}
    (success : result.mapError change = .ok value) : result = .ok value := by
  cases result with
  | error error => cases success
  | ok found => exact congrArg _ (Except.ok.inj success)

end Except
