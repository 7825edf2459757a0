import AlacrityDrivers.Venet.CopyFrame
import Mathlib.Data.List.TakeWhile

namespace Venet

def isTagged (priority : BitVec 32) (data : List UInt8) : Bool :=
  isPriority priority && decide (p8021MacLen ≤ data.length)

/-- What `SrCopyFrame` writes for the given data before it zeroes the tail. -/
def layout (priority : BitVec 32) (data : List UInt8) : List UInt8 :=
  if isTagged priority data then
    data.take p8021MacLen ++ p8021TpidType ++ data.drop p8021MacLen
  else data

def layoutCount (priority : BitVec 32) (data : List UInt8) : Nat :=
  if isTagged priority data then data.length + p8021ByteLen else data.length

structure LaidOut (priority : BitVec 32) (done : List UInt8) (c : FrameCopy) : Prop where
  written : c.written = layout priority done
  counted : c.bytesCopied = layoutCount priority done
  header : isPriority priority = true → c.macLen = p8021MacLen - done.length
  pending : isPriority priority = true → (c.priorityLen ≠ 0 ↔ done.length < p8021MacLen)

section Layout

variable {priority : BitVec 32} {data done src : List UInt8} {c : FrameCopy}

theorem isTagged_eq_true :
    isTagged priority data = true ↔ isPriority priority = true ∧ p8021MacLen ≤ data.length := by
  rw [isTagged, Bool.and_eq_true, decide_eq_true_iff]

theorem isTagged_short (short : data.length < p8021MacLen) : isTagged priority data = false := by
  have within : ¬ p8021MacLen ≤ data.length := Nat.not_le.mpr short
  simp [isTagged, within]

theorem isTagged_untagged (untagged : isPriority priority = false) :
    isTagged priority data = false := by
  rw [isTagged, untagged, Bool.false_and]

theorem isTagged_long (urgent : isPriority priority = true) (long : p8021MacLen ≤ data.length) :
    isTagged priority data = true :=
  isTagged_eq_true.mpr ⟨urgent, long⟩

theorem layout_length : (layout priority data).length =
    if isTagged priority data then data.length + 2 else data.length := by
  unfold layout
  split
  · rename_i tagged
    have long : p8021MacLen ≤ data.length := (isTagged_eq_true.mp tagged).2
    have type : p8021TpidType.length = 2 := rfl
    rw [List.length_append, List.length_append, List.length_take, List.length_drop, type]
    omega
  · rfl

theorem LaidOut.start (priority : BitVec 32) (offset dataLen : Nat) :
    LaidOut priority [] ⟨[], 0, offset, dataLen, p8021ByteLen, p8021MacLen⟩ := by
  have short : isTagged priority [] = false := isTagged_short (by decide)
  exact
    { written := by simp [layout, short]
      counted := by simp [layoutCount, short]
      header := fun _ => rfl
      pending := fun _ => iff_of_true (Nat.succ_ne_zero 3) (by decide) }

theorem LaidOut.move (laid : LaidOut priority done c)
    (still : isTagged priority (done ++ src) = isTagged priority done) (macLen : Nat)
    (header : isPriority priority = true → macLen = p8021MacLen - (done ++ src).length) :
    LaidOut priority (done ++ src) ({ c with macLen := macLen }.move src) where
  written := by
    change c.written ++ src = _
    rw [laid.written, layout, layout, still]
    cases tagged : isTagged priority done with
    | false => rfl
    | true =>
      have long : p8021MacLen ≤ done.length := (isTagged_eq_true.mp tagged).2
      rw [if_pos rfl, if_pos rfl, List.take_append_of_le_length long,
        List.drop_append_of_le_length long, List.append_assoc]
  counted := by
    change c.bytesCopied + src.length = _
    rw [laid.counted, layoutCount, layoutCount, still, List.length_append]
    split
    · omega
    · rfl
  header := header
  pending := by
    intro urgent
    change c.priorityLen ≠ 0 ↔ _
    rw [laid.pending urgent]
    have same : (p8021MacLen ≤ (done ++ src).length) = (p8021MacLen ≤ done.length) := by
      simpa [isTagged, urgent] using still
    rw [← Nat.not_le, ← Nat.not_le, same]

theorem LaidOut.insertTag (laid : LaidOut priority done c) (urgent : isPriority priority = true)
    (short : done.length < p8021MacLen) (long : p8021MacLen ≤ (done ++ src).length) :
    LaidOut priority (done ++ src) ((c.insertTag src).move (src.drop c.macLen)) := by
  have before : isTagged priority done = false := isTagged_short short
  have now : isTagged priority (done ++ src) = true := isTagged_long urgent long
  have header : c.macLen = p8021MacLen - done.length := laid.header urgent
  have total : (done ++ src).length = done.length + src.length := List.length_append
  refine { written := ?_, counted := ?_, header := ?_, pending := ?_ }
  · change c.written ++ src.take c.macLen ++ p8021TpidType ++ src.drop c.macLen = _
    rw [laid.written, layout, layout, before, now, if_neg Bool.false_ne_true, if_pos rfl, header,
      List.take_append, List.drop_append, List.take_of_length_le (Nat.le_of_lt short),
      List.drop_of_length_le (Nat.le_of_lt short), List.nil_append]
  · change c.bytesCopied + c.macLen + p8021ByteLen + (src.drop c.macLen).length = _
    rw [laid.counted, layoutCount, layoutCount, before, now, if_neg Bool.false_ne_true, if_pos rfl,
      List.length_drop]
    omega
  · intro _
    exact (Nat.sub_eq_zero_of_le long).symm
  · intro _
    exact iff_of_false (fun impossible => impossible rfl) (Nat.not_lt.mpr long)

theorem copyMdl_cursors (priority : BitVec 32) (bytes : List UInt8) (c : FrameCopy) :
    (copyMdl priority bytes c).offset = c.offset - bytes.length ∧
      (copyMdl priority bytes c).dataLen = c.dataLen - (bytes.length - c.offset) := by
  unfold copyMdl
  split
  · dsimp only
    rw [List.length_take, List.length_drop]
    omega
  · dsimp only
    omega

theorem LaidOut.cursors (laid : LaidOut priority done c) (offset dataLen : Nat) :
    LaidOut priority done
      { c with
        offset := offset
        dataLen := dataLen } :=
  ⟨laid.written, laid.counted, laid.header, laid.pending⟩

theorem LaidOut.copyMdl (bytes : List UInt8) (laid : LaidOut priority done c) :
    LaidOut priority (done ++ (bytes.drop c.offset).take c.dataLen)
      (copyMdl priority bytes c) := by
  unfold Venet.copyMdl
  split
  · generalize (bytes.drop c.offset).take c.dataLen = src
    dsimp only
    have total : (done ++ src).length = done.length + src.length := List.length_append
    cases urgent : isPriority priority with
    | false =>
      have still : isTagged priority (done ++ src) = isTagged priority done := by
        rw [isTagged_untagged urgent, isTagged_untagged urgent]
      have moved := laid.move still c.macLen (fun impossible => absurd impossible (by simp [urgent]))
      exact moved.cursors 0 _
    | true =>
      by_cases short : done.length < p8021MacLen
      · have due : c.priorityLen ≠ 0 := (laid.pending urgent).mpr short
        rw [Bool.true_and, if_pos (bne_iff_ne.mpr due), laid.header urgent]
        by_cases long : p8021MacLen ≤ (done ++ src).length
        · have completes : src.length ≥ p8021MacLen - done.length := by omega
          have inserted := laid.insertTag urgent short long
          rw [laid.header urgent] at inserted
          rw [if_pos completes]
          exact inserted.cursors 0 _
        · have incomplete : ¬ src.length ≥ p8021MacLen - done.length := by omega
          have still : isTagged priority (done ++ src) = isTagged priority done := by
            rw [isTagged_short (Nat.not_le.mp long), isTagged_short short]
          have moved := laid.move still (p8021MacLen - done.length - src.length) (by
            intro _
            omega)
          rw [if_neg incomplete]
          exact moved.cursors 0 _
      · have inserted : ¬ c.priorityLen ≠ 0 := by
          rw [laid.pending urgent]
          exact short
        have still : isTagged priority (done ++ src) = isTagged priority done := by
          rw [isTagged_long urgent (by omega), isTagged_long urgent (by omega)]
        have moved := laid.move still c.macLen (by
          intro _
          rw [laid.header urgent]
          omega)
        rw [Bool.true_and, if_neg (by simpa using inserted)]
        exact moved.cursors 0 _
  · rename_i within
    have nothing : bytes.drop c.offset = [] := List.drop_of_length_le (Nat.not_lt.mp within)
    rw [nothing, List.take_nil, List.append_nil]
    exact laid.cursors _ _

theorem LaidOut.copyMdls (mdls : List Mdl) (laid : LaidOut priority done c) :
    ∃ copied, LaidOut priority
        (done ++ ((chainBytes (mdls.takeWhile Mdl.mapped)).drop c.offset).take c.dataLen) copied ∧
      (Venet.copyMdls priority mdls c = copied ∨
        Venet.copyMdls priority mdls c = { copied with bytesCopied := 0 } ∧
          ∃ mdl ∈ mdls, mdl.mapped = false) := by
  induction mdls generalizing done c with
  | nil =>
    refine ⟨c, ?_, Or.inl rfl⟩
    rw [List.takeWhile_nil, chainBytes, List.flatMap_nil, List.drop_nil, List.take_nil,
      List.append_nil]
    exact laid
  | cons mdl mdls ih =>
    by_cases nothing : c.dataLen = 0
    · refine ⟨c, ?_, Or.inl ?_⟩
      · rw [nothing, List.take_zero, List.append_nil]
        exact laid
      · rw [Venet.copyMdls, if_pos nothing]
    · cases mapped : mdl.mapped with
      | false =>
        refine ⟨c, ?_, Or.inr ⟨?_, mdl, List.mem_cons_self, mapped⟩⟩
        · rw [List.takeWhile_cons, mapped, if_neg Bool.false_ne_true, chainBytes, List.flatMap_nil,
            List.drop_nil, List.take_nil, List.append_nil]
          exact laid
        · rw [Venet.copyMdls, if_neg nothing, mapped, if_neg Bool.false_ne_true]
      | true =>
        rcases ih (laid.copyMdl mdl.bytes) with ⟨copied, whole, result⟩
        rcases copyMdl_cursors priority mdl.bytes c with ⟨offset, dataLen⟩
        have split : ((chainBytes ((mdl :: mdls).takeWhile Mdl.mapped)).drop c.offset).take c.dataLen =
            (mdl.bytes.drop c.offset).take c.dataLen ++
              ((chainBytes (mdls.takeWhile Mdl.mapped)).drop (c.offset - mdl.bytes.length)).take
                (c.dataLen - (mdl.bytes.length - c.offset)) := by
          rw [List.takeWhile_cons, mapped, if_pos rfl, chainBytes, List.flatMap_cons,
            List.drop_append, List.take_append, List.length_drop]
          rfl
        rw [offset, dataLen, List.append_assoc, ← split] at whole
        refine ⟨copied, whole, ?_⟩
        rw [copyMdls_cons nothing mapped]
        rcases result with same | ⟨stopped, failing, member, unmapped⟩
        · exact Or.inl same
        · exact Or.inr ⟨stopped, failing, List.mem_cons_of_mem mdl member, unmapped⟩

end Layout

def availableBytes (nb : NetBuffer) : List UInt8 :=
  ((chainBytes (nb.mdls.takeWhile Mdl.mapped)).drop nb.dataOffset).take nb.dataLength

def frameOf (priority : BitVec 32) (data : List UInt8) : CopiedFrame :=
  if data = [] then ⟨[], 0⟩
  else
    ⟨layout priority data ++ List.replicate (ethMinPacketSize - layoutCount priority data) 0,
      max (layoutCount priority data) ethMinPacketSize⟩

section Frames

variable {priority : BitVec 32} {data : List UInt8} {nb : NetBuffer} {c : FrameCopy}

theorem layoutCount_eq_zero : layoutCount priority data = 0 ↔ data = [] := by
  unfold layoutCount
  split
  · rename_i tagged
    have long : p8021MacLen ≤ data.length := (isTagged_eq_true.mp tagged).2
    refine iff_of_false (Nat.succ_ne_zero _) ?_
    intro none
    rw [none] at long
    exact absurd long (by decide)
  · exact List.length_eq_zero_iff

theorem zeroTail_laidOut (laid : LaidOut priority data c) : zeroTail c = frameOf priority data := by
  unfold zeroTail frameOf
  rw [laid.written, laid.counted]
  by_cases none : data = []
  · have zero : layoutCount priority data = 0 := layoutCount_eq_zero.mpr none
    rw [if_neg (fun some => some.1 zero), if_pos none, zero, none, layout,
      isTagged_short (by decide), if_neg Bool.false_ne_true]
  · have some : layoutCount priority data ≠ 0 := fun zero => none (layoutCount_eq_zero.mp zero)
    rw [if_neg none]
    by_cases short : layoutCount priority data < ethMinPacketSize
    · rw [if_pos ⟨some, short⟩, Nat.max_eq_right (Nat.le_of_lt short)]
    · have full : ethMinPacketSize ≤ layoutCount priority data := Nat.not_lt.mp short
      rw [if_neg (fun both => short both.2), Nat.sub_eq_zero_of_le full, List.replicate_zero,
        List.append_nil, Nat.max_eq_left full]

theorem available_mapped (mapped : ∀ mdl ∈ nb.mdls, mdl.mapped = true) :
    availableBytes nb = dataBytes nb := by
  have whole : nb.mdls.takeWhile Mdl.mapped = nb.mdls :=
    List.takeWhile_eq_self_iff.mpr mapped
  rw [availableBytes, whole, dataBytes]

theorem dataBytes_length (enough : nb.dataOffset + nb.dataLength ≤ (chainBytes nb.mdls).length) :
    (dataBytes nb).length = nb.dataLength := by
  rw [dataBytes, List.length_take, List.length_drop]
  omega

theorem srCopyFrame_mapped (mapped : ∀ mdl ∈ nb.mdls, mdl.mapped = true) :
    srCopyFrame nb priority = frameOf priority (dataBytes nb) := by
  rcases (LaidOut.start priority nb.dataOffset nb.dataLength).copyMdls nb.mdls with
    ⟨copied, laid, same | ⟨_, failing, member, unmapped⟩⟩
  · change LaidOut priority (availableBytes nb) copied at laid
    rw [available_mapped mapped] at laid
    rw [srCopyFrame, same, zeroTail_laidOut laid]
  · rw [mapped failing member] at unmapped
    exact absurd unmapped (by decide)

/-- The first bytes of `tcb->data`, as many as the call returned, where the buffer held `before`. -/
def CopiedFrame.contents (frame : CopiedFrame) (before : List UInt8) : List UInt8 :=
  (frame.data ++ before.drop frame.data.length).take frame.count

/-- An untagged frame is its data bytes, zeroes up to the minimum size behind them. -/
theorem srCopyFrame_untagged (before : List UInt8)
    (mapped : ∀ mdl ∈ nb.mdls, mdl.mapped = true) (some : 1 ≤ nb.dataLength)
    (enough : nb.dataOffset + nb.dataLength ≤ (chainBytes nb.mdls).length)
    (untagged : priority = 0#32 ∨ priority &&& p8021HostMask ≠ 0#32) :
    (srCopyFrame nb priority).count = max nb.dataLength ethMinPacketSize ∧
      (srCopyFrame nb priority).contents before =
        ((chainBytes nb.mdls).drop nb.dataOffset).take nb.dataLength ++
          List.replicate (ethMinPacketSize - nb.dataLength) 0 := by
  have length : (dataBytes nb).length = nb.dataLength := dataBytes_length enough
  have notEmpty : dataBytes nb ≠ [] := by
    rw [← List.length_pos_iff, length]
    exact some
  have plain : isTagged priority (dataBytes nb) = false := by
    apply isTagged_untagged
    rcases untagged with zero | host
    · simp [isPriority, zero]
    · simp [isPriority, host]
  have frame : srCopyFrame nb priority =
      ⟨dataBytes nb ++ List.replicate (ethMinPacketSize - nb.dataLength) 0,
        max nb.dataLength ethMinPacketSize⟩ := by
    rw [srCopyFrame_mapped mapped, frameOf, if_neg notEmpty, layout, layoutCount, plain,
      if_neg Bool.false_ne_true, if_neg Bool.false_ne_true, length]
  refine ⟨by rw [frame], ?_⟩
  rw [frame, CopiedFrame.contents]
  apply List.take_left'
  change (dataBytes nb ++ List.replicate (ethMinPacketSize - nb.dataLength) 0).length =
    max nb.dataLength ethMinPacketSize
  rw [List.length_append, List.length_replicate, length]
  omega

theorem srCopyFrame_untagged_split :
    (srCopyFrame
        ⟨[⟨[9], true⟩, ⟨[1, 2], true⟩, ⟨[], true⟩, ⟨[3], true⟩], 1, 3⟩ 0#32).count = 60 ∧
      (srCopyFrame
        ⟨[⟨[9], true⟩, ⟨[1, 2], true⟩, ⟨[], true⟩, ⟨[3], true⟩], 1, 3⟩ 0#32).contents [] =
          [1, 2, 3] ++ List.replicate 57 0 :=
  srCopyFrame_untagged [] (by decide) (by decide) (by decide) (Or.inl rfl)

/-- Where the chain is cut into `MDL`s and where its data starts makes no difference. -/
theorem srCopyFrame_segmentation {one other : NetBuffer} (priority : BitVec 32)
    (oneMapped : ∀ mdl ∈ one.mdls, mdl.mapped = true)
    (otherMapped : ∀ mdl ∈ other.mdls, mdl.mapped = true)
    (same : dataBytes one = dataBytes other) :
    srCopyFrame one priority = srCopyFrame other priority := by
  rw [srCopyFrame_mapped oneMapped, srCopyFrame_mapped otherMapped, same]

theorem srCopyFrame_segmentation_header :
    srCopyFrame
        ⟨[⟨[1, 2, 3, 4, 5], true⟩, ⟨[], true⟩, ⟨[6, 7, 8, 9, 10, 11, 12, 13], true⟩], 0, 13⟩ 1#32 =
      srCopyFrame
        ⟨[⟨[0, 1, 2, 3, 4, 5, 6, 7, 8, 9, 10, 11, 12], true⟩, ⟨[13, 14], true⟩], 1, 13⟩ 1#32 :=
  srCopyFrame_segmentation 1#32 (by decide) (by decide) (by decide)

end Frames

end Venet
