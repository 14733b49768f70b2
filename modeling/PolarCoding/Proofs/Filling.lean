import PolarCoding.Proofs.Overwrite
import PolarCoding.Scalar

/-!
# What a filled frame holds

A position of a frame holds the value of its source whose index is the number of earlier positions
of the same source. A frame can be filled if the mask is long enough and both sources have a value
for each of their positions, and otherwise the attempt ends in a fault. A filled frame can be
taken apart again, and a frame put together from its parts is the frame they came from.
-/

namespace PolarCoding

section Counts

variable {flag : UInt8}

theorem ofFlag_eq_frozen_iff : Source.ofFlag flag = .frozen ↔ flag ≠ 0 := by
  unfold Source.ofFlag
  split <;> simp_all

theorem ofFlag_eq_info_iff : Source.ofFlag flag = .info ↔ flag = 0 := by
  unfold Source.ofFlag
  split <;> simp_all

/-- A frozen position counts for the frozen values only. -/
theorem counts_cons_frozen (kind : Source.ofFlag flag = .frozen) (mask : List UInt8) :
    frozenCount (flag :: mask) = frozenCount mask + 1 ∧
      infoCount (flag :: mask) = infoCount mask := by
  have nonzero := ofFlag_eq_frozen_iff.mp kind
  constructor
  · exact List.countP_cons_of_pos (by simpa using nonzero)
  · exact List.countP_cons_of_neg (by simpa using nonzero)

/-- An information position counts for the information values only. -/
theorem counts_cons_info (kind : Source.ofFlag flag = .info) (mask : List UInt8) :
    frozenCount (flag :: mask) = frozenCount mask ∧
      infoCount (flag :: mask) = infoCount mask + 1 := by
  have zero := ofFlag_eq_info_iff.mp kind
  constructor
  · exact List.countP_cons_of_neg (by simpa using zero)
  · exact List.countP_cons_of_pos (by simpa using zero)

end Counts

/-- A mask of zeros has information positions only. -/
theorem counts_replicate_zero (size : Nat) :
    frozenCount (List.replicate size 0) = 0 ∧ infoCount (List.replicate size 0) = size := by
  have info : infoCount (List.replicate size 0) = size := by
    rw [infoCount, List.countP_eq_length.mpr]
    · exact List.length_replicate
    · intro flag member
      rw [List.eq_of_mem_replicate member]
      rfl
  have total := frozenCount_add_infoCount (List.replicate size 0)
  rw [info, List.length_replicate] at total
  exact ⟨Nat.add_eq_right.mp total, info⟩

theorem exhausted_fill_eq_none_iff (mask frozen info : List UInt8) :
    (fill mask frozen info).exhausted = none ↔
      frozenCount mask ≤ frozen.length ∧ infoCount mask ≤ info.length := by
  fun_induction fill mask frozen info with
  | case1 frozen info => simp [frozenCount, infoCount]
  | case2 flag mask info kind =>
      obtain ⟨frozenCons, _⟩ := counts_cons_frozen kind mask
      simp [frozenCons]
  | case3 flag mask value frozen info kind ih =>
      obtain ⟨frozenCons, infoCons⟩ := counts_cons_frozen kind mask
      rw [frozenCons, infoCons, List.length_cons, Nat.add_le_add_iff_right]
      exact ih
  | case4 flag mask frozen kind =>
      obtain ⟨_, infoCons⟩ := counts_cons_info kind mask
      simp [infoCons]
  | case5 flag mask frozen value info kind ih =>
      obtain ⟨frozenCons, infoCons⟩ := counts_cons_info kind mask
      rw [frozenCons, infoCons, List.length_cons, Nat.add_le_add_iff_right]
      exact ih

/-- The source that stops a filling has fewer values than positions. -/
theorem short_of_exhausted_fill {mask frozen info : List UInt8} {source : Source} :
    (fill mask frozen info).exhausted = some source →
      match source with
      | .frozen => frozen.length < frozenCount mask
      | .info => info.length < infoCount mask := by
  fun_induction fill mask frozen info with
  | case1 frozen info =>
      intro stops
      cases stops
  | case2 flag mask info kind =>
      intro stops
      cases stops
      rw [(counts_cons_frozen kind mask).1]
      exact Nat.succ_pos _
  | case3 flag mask value frozen info kind ih =>
      intro stops
      obtain ⟨frozenCons, infoCons⟩ := counts_cons_frozen kind mask
      rw [frozenCons, infoCons]
      cases source with
      | frozen => exact Nat.succ_lt_succ (ih stops)
      | info => exact ih stops
  | case4 flag mask frozen kind =>
      intro stops
      cases stops
      rw [(counts_cons_info kind mask).2]
      exact Nat.succ_pos _
  | case5 flag mask frozen value info kind ih =>
      intro stops
      obtain ⟨frozenCons, infoCons⟩ := counts_cons_info kind mask
      rw [frozenCons, infoCons]
      cases source with
      | frozen => exact ih stops
      | info => exact Nat.succ_lt_succ (ih stops)

/-- A frame without frozen positions is filled with the information itself. -/
theorem fill_information (info : List UInt8) :
    fill (List.replicate info.length 0) [] info = ⟨info, none⟩ := by
  induction info with
  | nil => rfl
  | cons value info ih =>
      rw [List.length_cons, List.replicate_succ]
      exact congrArg (Filling.cons value) ih

theorem length_fill {mask frozen info : List UInt8}
    (complete : (fill mask frozen info).exhausted = none) :
    (fill mask frozen info).symbols.length = mask.length := by
  fun_induction fill mask frozen info with
  | case1 frozen info => rfl
  | case2 flag mask info kind => cases complete
  | case3 flag mask value frozen info kind ih => exact congrArg Nat.succ (ih complete)
  | case4 flag mask frozen kind => cases complete
  | case5 flag mask frozen value info kind ih => exact congrArg Nat.succ (ih complete)

theorem length_fill_le (mask frozen info : List UInt8) :
    (fill mask frozen info).symbols.length ≤ mask.length := by
  fun_induction fill mask frozen info with
  | case1 frozen info => exact Nat.le_refl 0
  | case2 flag mask info kind => exact Nat.zero_le _
  | case3 flag mask value frozen info kind ih => exact Nat.succ_le_succ ih
  | case4 flag mask frozen kind => exact Nat.zero_le _
  | case5 flag mask frozen value info kind ih => exact Nat.succ_le_succ ih

/-- Filling takes the values of each source in order. -/
theorem getElem?_fill {mask frozen info : List UInt8} {position : Nat} {flag : UInt8}
    (within : position < (fill mask frozen info).symbols.length)
    (present : mask[position]? = some flag) :
    (fill mask frozen info).symbols[position]? =
      match Source.ofFlag flag with
      | .frozen => frozen[frozenCount (mask.take position)]?
      | .info => info[infoCount (mask.take position)]? := by
  fun_induction fill mask frozen info generalizing position with
  | case1 frozen info => cases within
  | case2 first mask info kind => cases within
  | case3 first mask value frozen info kind ih =>
      cases position with
      | zero =>
          cases present
          rw [kind]
          rfl
      | succ position =>
          obtain ⟨frozenCons, infoCons⟩ := counts_cons_frozen kind (mask.take position)
          rw [List.take_succ_cons, frozenCons, infoCons, List.getElem?_cons_succ]
          exact ih (Nat.lt_of_succ_lt_succ within) present
  | case4 first mask frozen kind => cases within
  | case5 first mask frozen value info kind ih =>
      cases position with
      | zero =>
          cases present
          rw [kind]
          rfl
      | succ position =>
          obtain ⟨frozenCons, infoCons⟩ := counts_cons_info kind (mask.take position)
          rw [List.take_succ_cons, frozenCons, infoCons, List.getElem?_cons_succ]
          exact ih (Nat.lt_of_succ_lt_succ within) present

/-- Reading a filled frame back gives the values that were used. -/
theorem valuesAt_fill {mask frozen info : List UInt8}
    (complete : (fill mask frozen info).exhausted = none) :
    valuesAt .frozen mask (fill mask frozen info).symbols = frozen.take (frozenCount mask) ∧
      valuesAt .info mask (fill mask frozen info).symbols = info.take (infoCount mask) := by
  fun_induction fill mask frozen info with
  | case1 frozen info => simp [valuesAt, frozenCount, infoCount]
  | case2 flag mask info kind => cases complete
  | case3 flag mask value frozen info kind ih =>
      obtain ⟨frozenCons, infoCons⟩ := counts_cons_frozen kind mask
      obtain ⟨frozenRead, infoRead⟩ := ih complete
      simp [Filling.cons, valuesAt, kind, frozenCons, infoCons, frozenRead, infoRead]
  | case4 flag mask frozen kind => cases complete
  | case5 flag mask frozen value info kind ih =>
      obtain ⟨frozenCons, infoCons⟩ := counts_cons_info kind mask
      obtain ⟨frozenRead, infoRead⟩ := ih complete
      simp [Filling.cons, valuesAt, kind, frozenCons, infoCons, frozenRead, infoRead]

/-- A frame put together from its own values is that frame. -/
theorem fill_valuesAt {mask frame : List UInt8} (same : mask.length = frame.length) :
    fill mask (valuesAt .frozen mask frame) (valuesAt .info mask frame) = ⟨frame, none⟩ := by
  induction mask generalizing frame with
  | nil =>
      cases frame with
      | nil => rfl
      | cons symbol frame => cases same
  | cons flag mask ih =>
      cases frame with
      | nil => cases same
      | cons symbol frame =>
          have later := ih (Nat.succ.inj same)
          cases kind : Source.ofFlag flag <;> simp [valuesAt, fill, kind, later, Filling.cons]

theorem length_valuesAt {mask frame : List UInt8} (same : mask.length = frame.length) :
    (valuesAt .frozen mask frame).length = frozenCount mask ∧
      (valuesAt .info mask frame).length = infoCount mask := by
  induction mask generalizing frame with
  | nil => exact ⟨rfl, rfl⟩
  | cons flag mask ih =>
      cases frame with
      | nil => cases same
      | cons symbol frame =>
          obtain ⟨frozen, info⟩ := ih (Nat.succ.inj same)
          cases kind : Source.ofFlag flag with
          | frozen =>
              obtain ⟨frozenCons, infoCons⟩ := counts_cons_frozen kind mask
              simp [valuesAt, kind, frozenCons, infoCons, frozen, info]
          | info =>
              obtain ⟨frozenCons, infoCons⟩ := counts_cons_info kind mask
              simp [valuesAt, kind, frozenCons, infoCons, frozen, info]

/-- Whatever holds of the values of both sources holds of the frame. -/
theorem forall_mem_fill {property : UInt8 → Prop} {mask frozen info : List UInt8}
    (frozenHold : ∀ value ∈ frozen, property value) (infoHold : ∀ value ∈ info, property value) :
    ∀ symbol ∈ (fill mask frozen info).symbols, property symbol := by
  fun_induction fill mask frozen info with
  | case1 frozen info => simp
  | case2 flag mask info kind => simp
  | case3 flag mask value frozen info kind ih =>
      obtain ⟨first, later⟩ := List.forall_mem_cons.mp frozenHold
      exact List.forall_mem_cons.mpr ⟨first, ih later infoHold⟩
  | case4 flag mask frozen kind => simp
  | case5 flag mask frozen value info kind ih =>
      obtain ⟨first, later⟩ := List.forall_mem_cons.mp infoHold
      exact List.forall_mem_cons.mpr ⟨first, ih frozenHold later⟩

theorem forall_mem_valuesAt {property : UInt8 → Prop} (source : Source)
    {mask frame : List UInt8} (hold : ∀ symbol ∈ frame, property symbol) :
    ∀ value ∈ valuesAt source mask frame, property value := by
  induction mask generalizing frame with
  | nil => simp [valuesAt]
  | cons flag mask ih =>
      cases frame with
      | nil => simp [valuesAt]
      | cons symbol frame =>
          obtain ⟨first, later⟩ := List.forall_mem_cons.mp hold
          rw [valuesAt]
          split
          · exact List.forall_mem_cons.mpr ⟨first, ih later⟩
          · exact ih later

namespace Sources

structure Cover (sources : Sources) (size : Nat) : Prop where
  mask : size ≤ sources.mask.length
  frozen : frozenCount (sources.mask.take size) ≤ sources.frozen.length
  info : infoCount (sources.mask.take size) ≤ sources.info.length

/-- The symbols at the first `size` positions, up to the first one without a value. -/
def frame (sources : Sources) (size : Nat) : List UInt8 :=
  (fill (sources.mask.take size) sources.frozen sources.info).symbols

/-- The value for a position: the one whose index in its source is the number of earlier positions
of that source. -/
def valueAt? (sources : Sources) (position : Nat) : Option UInt8 :=
  match sources.mask[position]? with
  | none => none
  | some flag =>
      let earlier := sources.mask.take position
      match Source.ofFlag flag with
      | .frozen => sources.frozen[frozenCount earlier]?
      | .info => sources.info[infoCount earlier]?

variable {sources : Sources} {size : Nat}

theorem Cover.complete (cover : sources.Cover size) :
    (fill (sources.mask.take size) sources.frozen sources.info).exhausted = none :=
  (exhausted_fill_eq_none_iff _ _ _).mpr ⟨cover.frozen, cover.info⟩

theorem Cover.length_frame (cover : sources.Cover size) : (sources.frame size).length = size := by
  rw [frame, length_fill cover.complete, List.length_take_of_le cover.mask]

/-- The values of the first positions depend on the mask of these positions only. -/
theorem valueAt?_take {position : Nat} (inside : position < size) :
    (Sources.mk (sources.mask.take size) sources.frozen sources.info).valueAt? position =
      sources.valueAt? position := by
  simp only [valueAt?, List.getElem?_take_of_lt inside, List.take_take,
    Nat.min_eq_left (Nat.le_of_lt inside)]

/-- What is filled are the values of the positions. -/
theorem getElem?_frame {position : Nat} (within : position < (sources.frame size).length) :
    (sources.frame size)[position]? = sources.valueAt? position := by
  have inMask : position < (sources.mask.take size).length :=
    Nat.lt_of_lt_of_le within (length_fill_le _ _ _)
  have inside : position < size := Nat.lt_of_lt_of_le inMask (List.length_take_le _ _)
  have flag := List.getElem?_eq_getElem inMask
  rw [← valueAt?_take inside, frame, getElem?_fill within flag]
  simp only [valueAt?, flag]

theorem Cover.getElem?_frame (cover : sources.Cover size) {position : Nat}
    (inside : position < size) : (sources.frame size)[position]? = sources.valueAt? position := by
  rw [← cover.length_frame] at inside
  exact Sources.getElem?_frame inside

/-- A frame that can be filled is filled. -/
theorem Cover.interleave_eq {target : List UInt8} (cover : sources.Cover target.length) :
    sources.interleave target = .ok () (sources.frame target.length) := by
  have size := cover.length_frame
  have behind : target.drop (sources.frame target.length).length = [] := by
    rw [size, List.drop_length]
  have enough : ¬ sources.mask.length < target.length := Nat.not_lt.mpr cover.mask
  rw [frame] at behind
  simp only [interleave, if_neg enough, cover.complete, behind, List.append_nil, frame]

/-- A word is what a frame of information only can be filled with. -/
theorem cover_information {word : List UInt8} (length : word.length = size) :
    (Sources.mk (List.replicate size 0) [] word).Cover size := by
  obtain ⟨frozen, info⟩ := counts_replicate_zero size
  have all : (List.replicate size (0 : UInt8)).take size = List.replicate size 0 := by
    rw [List.take_replicate, Nat.min_self]
  constructor
  · exact Nat.le_of_eq List.length_replicate.symm
  · rw [all, frozen]
    exact Nat.zero_le _
  · rw [all, info]
    exact Nat.le_of_eq length.symm

theorem frame_information {word : List UInt8} (length : word.length = size) :
    (Sources.mk (List.replicate size 0) [] word).frame size = word := by
  rw [frame, List.take_replicate, Nat.min_self, ← length, fill_information]

/-- Only a frame that can be filled is filled. -/
theorem cover_of_interleave {target after : List UInt8}
    (run : sources.interleave target = .ok () after) : sources.Cover target.length := by
  rw [interleave] at run
  split at run
  · cases run
  · rename_i enough
    cases complete : (fill (sources.mask.take target.length) sources.frozen
        sources.info).exhausted with
    | some source => simp [complete] at run
    | none =>
        obtain ⟨frozen, info⟩ := (exhausted_fill_eq_none_iff _ _ _).mp complete
        exact ⟨Nat.not_lt.mp enough, frozen, info⟩

end Sources

end PolarCoding
