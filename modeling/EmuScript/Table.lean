/-!
# Tables

A table holds at most one value for each key. A new value takes the place of
the one that its key had.
-/

set_option autoImplicit false

namespace EmuScript

abbrev Table (κ α : Type) : Type :=
  List (κ × α)

namespace Table

variable {κ α : Type} [DecidableEq κ]

def find? (table : Table κ α) (key : κ) : Option α :=
  match table with
  | [] => none
  | (other, value) :: rest => if other = key then some value else find? rest key

def erase (table : Table κ α) (key : κ) : Table κ α :=
  table.filter fun entry => entry.1 ≠ key

def insert (table : Table κ α) (key : κ) (value : α) : Table κ α :=
  (key, value) :: table.erase key

@[simp] theorem find?_nil (key : κ) : find? ([] : Table κ α) key = none := rfl

@[simp] theorem find?_erase_self (table : Table κ α) (key : κ) :
    (table.erase key).find? key = none := by
  induction table with
  | nil => rfl
  | cons entry rest ih =>
      by_cases same : entry.1 = key
      · simpa [erase, same] using ih
      · simpa [erase, same, find?] using ih

theorem find?_erase_of_ne {key other : κ} (table : Table κ α) (differ : other ≠ key) :
    (table.erase key).find? other = table.find? other := by
  induction table with
  | nil => rfl
  | cons entry rest ih =>
      by_cases same : entry.1 = key
      · have skipped : entry.1 ≠ other := fun equal => differ (equal ▸ same)
        simpa [erase, same, find?, Ne.symm differ] using ih
      · by_cases found : entry.1 = other
        · simp [erase, find?, found, differ]
        · simpa [erase, same, find?, found] using ih

@[simp] theorem find?_insert_self (table : Table κ α) (key : κ) (value : α) :
    (table.insert key value).find? key = some value := by
  simp [insert, find?]

theorem find?_insert_of_ne {key other : κ} (table : Table κ α) (value : α) (differ : other ≠ key) :
    (table.insert key value).find? other = table.find? other := by
  simp [insert, find?, Ne.symm differ, find?_erase_of_ne table differ]

end Table

end EmuScript
