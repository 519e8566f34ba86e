import Lightweight.Gguf.Reader

/-! Where the tensors of an accepted file lie. In unbounded numbers, a tensor's range is inside the
file and the weights add up exactly when no declared size wraps. -/

namespace Lightweight.Gguf

open Lightweight.Core Lightweight.Fallible Lightweight.Word64

/-- The number of elements, unbounded. -/
def TensorInfo.count (tensor : TensorInfo) : Nat :=
  (tensor.dims.toList.map UInt64.toNat).prod

/-- The bytes of a tensor, unbounded, if its type is known. -/
def TensorInfo.footprint (tensor : TensorInfo) : Option Nat :=
  tensor.ggmlType.footprint tensor.count

/-- The range of every tensor of a known type ends inside the file. -/
def TensorsInside (contents : Contents) (file : GgufFile) : Prop :=
  ∀ tensor ∈ file.tensors, tensor.ggmlType.isKnown = true →
    ∃ size, tensor.footprint = some size ∧
      file.dataOffset.toNat + tensor.offset.toNat + size ≤ contents.bytes.length

/-- The weights, where they are told, are all the tensors' bytes. -/
def WeighsExactly (file : GgufFile) : Prop :=
  ∀ weight, file.weightBytes = some weight →
    ∃ sizes, file.tensors.mapM TensorInfo.footprint = some sizes ∧ weight.toNat = sizes.sum

/-- A tensor whose bytes can be counted in 64 bits, as far as its type is known. -/
def Countable (tensor : TensorInfo) : Prop :=
  ∀ size, tensor.footprint = some size → size < UInt64.size

/-- The tensors that the header of a file declares. -/
def declaredTensors (contents : Contents) : List TensorInfo :=
  match GgufFile.openHeaderOnly contents with
  | .ok file => file.tensors
  | .error _ => []

theorem readTensorInfo_elements : Yields readTensorInfo fun tensor => tensor.elements ≠ none := by
  unfold readTensorInfo
  apply Yields.after
  intro name
  apply Yields.after
  intro nDims
  apply Yields.after
  intro _
  apply Yields.after
  intro dims
  apply Yields.after
  intro typeId
  apply Yields.after
  intro offset
  apply (Yields.refuseIf _).bind
  intro _ counted
  exact Yields.pure counted

theorem readTensors_elements (count : Nat) :
    Yields (readTensors count) fun tensors => ∀ tensor ∈ tensors, tensor.elements ≠ none := by
  induction count with
  | zero =>
      apply Yields.pure
      intro tensor member
      cases member
  | succ count ih =>
      apply readTensorInfo_elements.bind
      intro tensor counted
      apply Yields.after
      intro _
      apply ih.bind
      intro tensors all_counted
      apply Yields.pure
      rw [List.forall_mem_cons]
      exact ⟨counted, all_counted⟩

/-- What holds of a header as soon as it is read. -/
def HeaderRead (fileSize : UInt64) (file : GgufFile) : Prop :=
  file.fileSize = fileSize ∧ ∀ tensor ∈ file.tensors, tensor.elements ≠ none

theorem readHeader_yields (fileSize : UInt64) : Yields (readHeader fileSize) (HeaderRead fileSize) := by
  unfold readHeader
  -- up to the tensors, nothing that is read matters here
  iterate 12
    apply Yields.after
    intro _
  apply (readTensors_elements _).bind
  intro tensors counted
  apply Yields.after
  intro cursor
  exact Yields.pure ⟨rfl, counted⟩

theorem parse_yields (fileSize : UInt64) :
    Yields (parse fileSize true) fun file =>
      HeaderRead fileSize file ∧ file.verifyTensorDataPresent = .ok () := by
  apply (readHeader_yields fileSize).bind
  intro file read
  apply (Yields.propagate _).bind
  intro _ verified
  exact Yields.pure ⟨read, verified⟩

/-- The facts about an accepted file that its tensors' ranges rest on. -/
theorem accepted_facts {contents : Contents} {file : GgufFile}
    (accepted : GgufFile.open contents = .ok file) :
    HeaderRead contents.size file ∧ file.verifyTensorDataPresent = .ok () := by
  obtain ⟨final, parsed⟩ := outcome_eq_ok.mp accepted
  exact (parse_yields contents.size).result _ _ _ parsed

theorem parse_unverified {fileSize : UInt64} {start final : Cursor} {file : GgufFile}
    (parsed : parse fileSize true start = .ok file final) :
    ∃ final, parse fileSize false start = .ok file final := by
  obtain ⟨read, middle, header, rest⟩ := bind_eq_ok.mp parsed
  obtain ⟨_, _, verified, returned⟩ := bind_eq_ok.mp rest
  cases returned
  exact ⟨middle, bind_eq_ok.mpr ⟨file, middle, header, rfl⟩⟩

theorem declaredTensors_of_accepted {contents : Contents} {file : GgufFile}
    (accepted : GgufFile.open contents = .ok file) : declaredTensors contents = file.tensors := by
  obtain ⟨final, parsed⟩ := outcome_eq_ok.mp accepted
  have headerOnly : GgufFile.openHeaderOnly contents = .ok file :=
    outcome_eq_ok.mpr (parse_unverified parsed)
  rw [declaredTensors, headerOnly]

/-- A computed size is the footprint, cut to 64 bits. -/
theorem byteSize_toNat {tensor : TensorInfo} (counted : tensor.elements ≠ none) :
    tensor.byteSize.map UInt64.toNat = tensor.footprint.map (· % UInt64.size) := by
  obtain ⟨elements, computed⟩ := Option.ne_none_iff_exists'.mp counted
  have exact_count : elements.toNat = tensor.count := by
    have product := foldlM_checkedMul computed
    rwa [UInt64.toNat_one, Nat.one_mul] at product
  rw [TensorInfo.byteSize, computed, Option.bind_some, GgmlType.bytesForElements_toNat, exact_count]
  rfl

theorem byteSize_of_countable {tensor : TensorInfo} (counted : tensor.elements ≠ none)
    (countable : Countable tensor) : tensor.byteSize.map UInt64.toNat = tensor.footprint := by
  rw [byteSize_toNat counted]
  cases told : tensor.footprint with
  | none => rfl
  | some size => rw [Option.map_some, Nat.mod_eq_of_lt (countable size told)]

/-- Where the check of one tensor passes, its range ends inside the file. The largest number is no
file size, so a sum that stops there is refused. -/
theorem verifyTensor_inside {file : GgufFile} {tensor : TensorInfo} {size : UInt64}
    (bounded : file.fileSize.toNat < UInt64.size - 1) (sized : tensor.byteSize = some size)
    (verified : file.verifyTensor tensor = .ok ()) :
    file.dataOffset.toNat + tensor.offset.toNat + size.toNat ≤ file.fileSize.toNat := by
  rw [GgufFile.verifyTensor, sized] at verified
  dsimp only at verified
  split at verified
  · cases verified
  · rename_i inside
    rw [UInt64.lt_iff_toNat_lt, toNat_saturatingAdd, toNat_saturatingAdd] at inside
    omega

theorem Contents.size_toNat (contents : Contents) :
    contents.size.toNat = contents.bytes.length := by
  have bounded := contents.bounded
  rw [Contents.size, UInt64.toNat_ofNat']
  apply Nat.mod_eq_of_lt
  omega

/-- The weights are the sum of the computed sizes. -/
theorem weightBytes_sum {tensors : List TensorInfo} {start weight : UInt64}
    (computed : tensors.foldlM (fun total tensor => tensor.byteSize.bind (checkedAdd total)) start =
      some weight) :
    ∃ sizes, tensors.mapM TensorInfo.byteSize = some sizes ∧
      weight.toNat = start.toNat + (sizes.map UInt64.toNat).sum := by
  induction tensors generalizing start with
  | nil =>
      cases computed
      exact ⟨[], rfl, by simp⟩
  | cons tensor tensors ih =>
      rw [List.foldlM_cons] at computed
      obtain ⟨total, step, rest⟩ := Option.bind_eq_some_iff.mp computed
      obtain ⟨size, sized, added⟩ := Option.bind_eq_some_iff.mp step
      obtain ⟨sizes, all_sized, sum⟩ := ih rest
      refine ⟨size :: sizes, ?_, ?_⟩
      · simp [List.mapM_cons, sized, all_sized]
      · rw [sum, checkedAdd_eq_some added, List.map_cons, List.sum_cons, Nat.add_assoc]

theorem mapM_footprint {tensors : List TensorInfo} {sizes : List UInt64}
    (exact_sizes : ∀ tensor ∈ tensors, tensor.byteSize.map UInt64.toNat = tensor.footprint)
    (computed : tensors.mapM TensorInfo.byteSize = some sizes) :
    tensors.mapM TensorInfo.footprint = some (sizes.map UInt64.toNat) := by
  induction tensors generalizing sizes with
  | nil =>
      cases computed
      rfl
  | cons tensor tensors ih =>
      rw [List.forall_mem_cons] at exact_sizes
      rw [List.mapM_cons] at computed ⊢
      obtain ⟨size, sized, rest⟩ := Option.bind_eq_some_iff.mp computed
      obtain ⟨others, all_sized, returned⟩ := Option.bind_eq_some_iff.mp rest
      cases returned
      rw [← exact_sizes.1, sized, ih exact_sizes.2 all_sized]
      rfl

theorem tensorsInside_of_countable {contents : Contents} {file : GgufFile}
    (accepted : GgufFile.open contents = .ok file)
    (countable : ∀ tensor ∈ file.tensors, Countable tensor) : TensorsInside contents file := by
  rcases accepted_facts accepted with ⟨⟨file_size, counted⟩, verified⟩
  have length : file.fileSize.toNat = contents.bytes.length := by
    rw [file_size, contents.size_toNat]
  have below : file.fileSize.toNat < UInt64.size - 1 := by
    have bounded := contents.bounded
    have wide : UInt64.size = 2 ^ 64 := rfl
    omega
  intro tensor member known
  have same := byteSize_of_countable (counted tensor member) (countable tensor member)
  obtain ⟨size, told⟩ :=
    Option.isSome_iff_exists.mp ((GgmlType.footprint_isSome_iff _ tensor.count).mpr known)
  have told : tensor.footprint = some size := told
  rw [told] at same
  obtain ⟨bytes, sized, bytes_size⟩ := Option.map_eq_some_iff.mp same
  refine ⟨size, told, ?_⟩
  calc
    file.dataOffset.toNat + tensor.offset.toNat + size
        = file.dataOffset.toNat + tensor.offset.toNat + bytes.toNat := by rw [bytes_size]
    _ ≤ file.fileSize.toNat :=
      verifyTensor_inside below sized (checkAll_eq_ok.mp verified tensor member)
    _ = contents.bytes.length := length

theorem weighsExactly_of_countable {contents : Contents} {file : GgufFile}
    (accepted : GgufFile.open contents = .ok file)
    (countable : ∀ tensor ∈ file.tensors, Countable tensor) : WeighsExactly file := by
  rcases accepted_facts accepted with ⟨⟨_, counted⟩, _⟩
  intro weight computed
  obtain ⟨sizes, all_sized, sum⟩ := weightBytes_sum computed
  refine ⟨sizes.map UInt64.toNat, ?_, ?_⟩
  · apply mapM_footprint _ all_sized
    intro tensor member
    exact byteSize_of_countable (counted tensor member) (countable tensor member)
  · rwa [UInt64.toNat_zero, Nat.zero_add] at sum

/-- A range inside a file is no longer than the file, so its length can be counted. -/
theorem countable_of_tensorsInside {contents : Contents} {file : GgufFile}
    (inside : TensorsInside contents file) : ∀ tensor ∈ file.tensors, Countable tensor := by
  intro tensor member size told
  have known : tensor.ggmlType.isKnown = true := by
    apply (GgmlType.footprint_isSome_iff _ tensor.count).mp
    exact Option.isSome_iff_exists.mpr ⟨size, told⟩
  obtain ⟨same, told_again, fits⟩ := inside tensor member known
  rw [told] at told_again
  cases told_again
  have bounded := contents.bounded
  have wide : UInt64.size = 2 ^ 64 := rfl
  omega

/-- In an accepted file the tensors of known types are where the header puts them and weigh what it
says, in unbounded numbers, if and only if every declared size can be counted in 64 bits. -/
theorem accepted_tensors_inside_iff {contents : Contents} {file : GgufFile}
    (accepted : GgufFile.open contents = .ok file) :
    (TensorsInside contents file ∧ WeighsExactly file) ↔
      ∀ tensor ∈ declaredTensors contents, Countable tensor := by
  rw [declaredTensors_of_accepted accepted]
  constructor
  · rintro ⟨inside, _⟩
    exact countable_of_tensorsInside inside
  · intro countable
    exact ⟨tensorsInside_of_countable accepted countable,
      weighsExactly_of_countable accepted countable⟩

/-- A file of one tensor of 32-bit floats, nameless and of one dimension, with some data. -/
def singleTensor (extent : List UInt8) (data : List UInt8) : List UInt8 :=
  magic ++ [3, 0, 0, 0] ++ [1, 0, 0, 0, 0, 0, 0, 0] ++ [0, 0, 0, 0, 0, 0, 0, 0] ++
    [0, 0, 0, 0, 0, 0, 0, 0] ++ [1, 0, 0, 0] ++ extent ++ [0, 0, 0, 0] ++
    [0, 0, 0, 0, 0, 0, 0, 0] ++ data

/-- The entry of that tensor. -/
def singleTensorEntry (extent : UInt64) : TensorInfo where
  name := []
  dims := #v[extent, 1, 1, 1]
  nDims := 1
  ggmlType := .f32
  offset := 0

/-- The parsed header of such a file. -/
def singleTensorFile (extent fileSize : UInt64) : GgufFile where
  version := 3
  alignment := 32
  metadata := []
  tensors := [singleTensorEntry extent]
  dataOffset := 64
  fileSize := fileSize

/-- One element, four bytes of data behind the padding. -/
def oneElement : Contents where
  bytes := singleTensor [1, 0, 0, 0, 0, 0, 0, 0] (List.replicate 12 0)
  bounded := by decide

theorem one_element_inside :
    GgufFile.open oneElement = .ok (singleTensorFile 1 68) ∧
      TensorsInside oneElement (singleTensorFile 1 68) ∧ WeighsExactly (singleTensorFile 1 68) := by
  have accepted : GgufFile.open oneElement = .ok (singleTensorFile 1 68) := by
    decide +kernel
  refine ⟨accepted, (accepted_tensors_inside_iff accepted).mpr ?_⟩
  rw [declaredTensors_of_accepted accepted]
  intro tensor member size told
  cases List.mem_singleton.mp member
  cases told
  decide +kernel

/-- 2 ^ 62 elements, and no data but the padding. -/
def wrappedSize : Contents where
  bytes := singleTensor [0, 0, 0, 0, 0, 0, 0, 0x40] (List.replicate 8 0)
  bounded := by decide

theorem wrapped_size_accepted :
    GgufFile.open wrappedSize = .ok (singleTensorFile 0x4000000000000000 64) ∧
      (singleTensorFile 0x4000000000000000 64).weightBytes = some 0 ∧
      ¬TensorsInside wrappedSize (singleTensorFile 0x4000000000000000 64) ∧
      ¬WeighsExactly (singleTensorFile 0x4000000000000000 64) := by
  have accepted : GgufFile.open wrappedSize = .ok (singleTensorFile 0x4000000000000000 64) := by
    decide +kernel
  have weightless : (singleTensorFile 0x4000000000000000 64).weightBytes = some 0 := by
    decide +kernel
  have sizes_of : (singleTensorFile 0x4000000000000000 64).tensors.mapM TensorInfo.footprint =
      some [UInt64.size] := by
    decide +kernel
  have size_of : ∀ tensor ∈ (singleTensorFile 0x4000000000000000 64).tensors,
      tensor.footprint = some UInt64.size := by
    decide +kernel
  refine ⟨accepted, weightless, ?_, ?_⟩
  · intro inside
    have member := List.mem_singleton.mpr (rfl : singleTensorEntry 0x4000000000000000 = _)
    have countable := countable_of_tensorsInside inside _ member
    exact absurd (countable _ (size_of _ member)) (lt_irrefl _)
  · intro exactly
    obtain ⟨sizes, told, sum⟩ := exactly 0 weightless
    rw [sizes_of] at told
    cases told
    revert sum
    decide +kernel

end Lightweight.Gguf
