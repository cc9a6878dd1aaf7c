namespace TensorUnit.Sim

/-- Overwrites packed bytes from an offset on. Bytes beyond the end are dropped. -/
def overwriteBytes (contents : ByteArray) (offset : Nat) : List UInt8 → ByteArray
  | [] => contents
  | b :: bs =>
    if h : offset < contents.size then overwriteBytes (contents.set offset b h) (offset + 1) bs
    else contents

def windowBytes (contents : ByteArray) (offset length : Nat) : List UInt8 :=
  (contents.extract offset (offset + length)).data.toList

def zeroBytes (size : Nat) : ByteArray :=
  ⟨Array.replicate size 0⟩

def overwrite {α : Type} (cells : Array α) (index : Nat) : List α → Array α
  | [] => cells
  | x :: xs =>
    if h : index < cells.size then overwrite (cells.set index x h) (index + 1) xs else cells

def window {α : Type} (cells : Array α) (index length : Nat) : List α :=
  (cells.extract index (index + length)).toList

@[simp] theorem size_overwrite {α : Type} (cells : Array α) (index : Nat) (values : List α) :
    (overwrite cells index values).size = cells.size := by
  induction values generalizing cells index with
  | nil => rfl
  | cons x xs ih =>
    rw [overwrite]
    split
    · rw [ih, Array.size_set]
    · rfl

theorem window_eq {α : Type} (cells : Array α) (index length : Nat) :
    window cells index length = (cells.toList.drop index).take length := by
  simp [window, List.extract_eq_take_drop]

theorem toList_overwrite {α : Type} {cells : Array α} {index : Nat} {values : List α}
    (h : index + values.length ≤ cells.size) :
    (overwrite cells index values).toList =
      cells.toList.take index ++ values ++ cells.toList.drop (index + values.length) := by
  induction values generalizing cells index with
  | nil => simp [overwrite]
  | cons x xs ih =>
    rw [List.length_cons] at h
    have hi : index < cells.size := by omega
    rw [overwrite, dif_pos hi, ih (by rw [Array.size_set]; omega), Array.toList_set,
      List.take_succ_eq_append_getElem (by simpa using hi), List.take_set_of_le (Nat.le_refl _),
      List.getElem_set_self, List.drop_set_of_lt (by omega)]
    simp [Nat.add_assoc, Nat.add_comm 1]

theorem data_overwriteBytes (contents : ByteArray) (offset : Nat) (bytes : List UInt8) :
    (overwriteBytes contents offset bytes).data = overwrite contents.data offset bytes := by
  induction bytes generalizing contents offset with
  | nil => rfl
  | cons b bs ih =>
    rw [overwriteBytes, overwrite]
    by_cases h : offset < contents.size
    · rw [dif_pos h, dif_pos (show offset < contents.data.size from h), ih]
      rfl
    · rw [dif_neg h, dif_neg (show ¬ offset < contents.data.size from h)]

theorem windowBytes_eq_window (contents : ByteArray) (offset length : Nat) :
    windowBytes contents offset length = window contents.data offset length := by
  simp [windowBytes, window]

theorem window_overwrite {α : Type} {cells : Array α} {index : Nat} {values : List α}
    (h : index + values.length ≤ cells.size) :
    window (overwrite cells index values) index values.length = values := by
  have hl : (cells.toList.take index).length = index := by simp; omega
  rw [window_eq, toList_overwrite h, List.append_assoc, List.drop_append,
    List.drop_of_length_le (by omega), hl]
  simp

end TensorUnit.Sim
