import AlacrityDrivers.Venet.FrameLayout

namespace Venet

def nicBufferSize : Nat := ethMaxPacketSize

/-- The frame of `source` with the tag of a priority in it, in a buffer that held `before`. -/
structure Tagged (priority : BitVec 32) (source before : List UInt8) (frame : CopiedFrame) :
    Prop where
  bytes : frame.contents before =
    source.take p8021MacLen ++ p8021TpidType ++ p8021Tci priority ++ source.drop p8021MacLen ++
      List.replicate (ethMinPacketSize - (source.length + p8021ByteLen)) 0
  counted : frame.count = max (source.length + p8021ByteLen) ethMinPacketSize
  complete : frame.data.length = frame.count

def WritesInside (frame : CopiedFrame) : Prop :=
  ∀ index, index < frame.data.length → index < nicBufferSize

section Tag

variable {priority : BitVec 32} {data : List UInt8} {nb : NetBuffer} {c : FrameCopy}

theorem isPriority_low (low : priority &&& 7#32 ≠ 0#32) (host : priority &&& p8021HostMask = 0#32) :
    isPriority priority = true := by
  have some : priority ≠ 0#32 := by
    intro zero
    rw [zero] at low
    exact low (by decide)
  simp [isPriority, some, host]

theorem frameOf_tagged_short (tagged : isTagged priority data = true) :
    (frameOf priority data).data.length + 2 = (frameOf priority data).count := by
  have long : p8021MacLen ≤ data.length := (isTagged_eq_true.mp tagged).2
  have notEmpty : data ≠ [] := by
    intro none
    rw [none] at long
    exact absurd long (by decide)
  rw [frameOf, if_neg notEmpty]
  change (layout priority data ++ List.replicate (ethMinPacketSize - layoutCount priority data) 0).length
    + 2 = max (layoutCount priority data) ethMinPacketSize
  rw [List.length_append, List.length_replicate, layout_length, layoutCount, tagged, if_pos rfl,
    if_pos rfl, p8021ByteLen]
  omega

/-- No frame of a priority gets its tag: the bytes behind the type are never written. -/
theorem srCopyFrame_not_tagged (nb : NetBuffer) (priority : BitVec 32) (before : List UInt8)
    (mapped : ∀ mdl ∈ nb.mdls, mdl.mapped = true) (header : 12 ≤ nb.dataLength)
    (enough : nb.dataOffset + nb.dataLength ≤ (chainBytes nb.mdls).length)
    (low : priority &&& 7#32 ≠ 0#32) (host : priority &&& p8021HostMask = 0#32) :
    ¬ Tagged priority (((chainBytes nb.mdls).drop nb.dataOffset).take nb.dataLength) before
      (srCopyFrame nb priority) := by
  intro correct
  have long : p8021MacLen ≤ (dataBytes nb).length := by
    rw [dataBytes_length enough]
    exact header
  have short := frameOf_tagged_short (isTagged_long (isPriority_low low host) long)
  have complete := correct.complete
  rw [srCopyFrame_mapped mapped] at complete
  omega

theorem srCopyFrame_not_tagged_header :
    ¬ Tagged 5#32 [1, 2, 3, 4, 5, 6, 7, 8, 9, 10, 11, 12] []
      (srCopyFrame ⟨[⟨[1, 2, 3, 4, 5, 6, 7, 8, 9, 10, 11, 12], true⟩], 0, 12⟩ 5#32) :=
  srCopyFrame_not_tagged ⟨[⟨[1, 2, 3, 4, 5, 6, 7, 8, 9, 10, 11, 12], true⟩], 0, 12⟩ 5#32 []
    (by decide) (by decide) (by decide) (by decide) (by decide)

theorem priority_five_lost :
    ¬ Tagged 5#32 [1, 2, 3, 4, 5, 6, 7, 8, 9, 10, 11, 12, 8, 6] (List.replicate 1514 0)
      (srCopyFrame ⟨[⟨[1, 2, 3, 4, 5, 6, 7, 8, 9, 10, 11, 12, 8, 6], true⟩], 0, 14⟩ 5#32) := by
  intro correct
  have third := congrArg (fun contents => contents[14]?) correct.bytes
  revert third
  decide

theorem zeroTail_length (c : FrameCopy) : (zeroTail c).data.length = c.written.length ∨
    c.bytesCopied ≠ 0 ∧ c.bytesCopied < ethMinPacketSize ∧
      (zeroTail c).data.length = c.written.length + (ethMinPacketSize - c.bytesCopied) := by
  unfold zeroTail
  split
  · rename_i short
    exact Or.inr ⟨short.1, short.2, by rw [List.length_append, List.length_replicate]⟩
  · exact Or.inl rfl

theorem srCopyFrame_length (nb : NetBuffer) (priority : BitVec 32) :
    (srCopyFrame nb priority).data.length = (layout priority (availableBytes nb)).length ∨
      (layout priority (availableBytes nb)).length < ethMinPacketSize ∧
        (srCopyFrame nb priority).data.length ≤ ethMinPacketSize := by
  rcases (LaidOut.start priority nb.dataOffset nb.dataLength).copyMdls nb.mdls with
    ⟨copied, laid, result⟩
  change LaidOut priority (availableBytes nb) copied at laid
  rw [← laid.written, srCopyFrame]
  have counted : copied.written.length ≤ copied.bytesCopied := by
    rw [laid.written, laid.counted, layout_length, layoutCount, p8021ByteLen]
    split
    · omega
    · exact Nat.le_refl _
  rcases result with same | ⟨stopped, _⟩
  · rw [same]
    rcases zeroTail_length copied with plain | ⟨_, short, padded⟩
    · exact Or.inl plain
    · refine Or.inr ⟨by omega, ?_⟩
      rw [padded]
      omega
  · rw [stopped]
    rcases zeroTail_length { copied with bytesCopied := 0 } with plain | ⟨some, _⟩
    · exact Or.inl plain
    · exact absurd rfl some

/-- The copy stays inside the buffer unless a frame of one byte less than the maximum size, or of the
    maximum size, gets a tag. -/
theorem srCopyFrame_inside_iff (nb : NetBuffer) (priority : BitVec 32)
    (admitted : nb.dataLength ≤ ethMaxPacketSize) :
    WritesInside (srCopyFrame nb priority) ↔
      isPriority priority = false ∨ (availableBytes nb).length < 1513 := by
  have available : (availableBytes nb).length ≤ ethMaxPacketSize :=
    Nat.le_trans (List.length_take_le nb.dataLength _) admitted
  have inside : WritesInside (srCopyFrame nb priority) ↔
      (srCopyFrame nb priority).data.length ≤ 1514 := by
    constructor
    · intro below
      by_contra beyond
      exact absurd (below 1514 (Nat.not_le.mp beyond)) (Nat.lt_irrefl 1514)
    · intro fits index below
      exact Nat.lt_of_lt_of_le below fits
  have laid : (srCopyFrame nb priority).data.length ≤ 1514 ↔
      (layout priority (availableBytes nb)).length ≤ 1514 := by
    have minimum : ethMinPacketSize = 60 := rfl
    rcases srCopyFrame_length nb priority with same | ⟨short, padded⟩
    · rw [same]
    · omega
  rw [inside, laid, layout_length]
  have maximum : ethMaxPacketSize = 1514 := rfl
  cases urgent : isPriority priority with
  | false =>
    rw [isTagged_untagged urgent, if_neg Bool.false_ne_true]
    exact iff_of_true (by omega) (Or.inl rfl)
  | true =>
    by_cases long : p8021MacLen ≤ (availableBytes nb).length
    · rw [isTagged_long urgent long, if_pos rfl]
      constructor
      · intro fits
        exact Or.inr (by omega)
      · rintro (impossible | below)
        · exact absurd impossible (by decide)
        · omega
    · have short : (availableBytes nb).length < p8021MacLen := Nat.not_le.mp long
      have header : p8021MacLen = 12 := rfl
      rw [isTagged_short short, if_neg Bool.false_ne_true]
      exact iff_of_true (by omega) (Or.inr (by omega))

theorem srCopyFrame_inside_iff_minimum :
    WritesInside (srCopyFrame ⟨[⟨[1, 2], true⟩], 0, 2⟩ 1#32) ↔
      isPriority 1#32 = false ∨ (availableBytes ⟨[⟨[1, 2], true⟩], 0, 2⟩).length < 1513 :=
  srCopyFrame_inside_iff ⟨[⟨[1, 2], true⟩], 0, 2⟩ 1#32 (by decide)

theorem maximum_frame_overruns :
    ¬ WritesInside (srCopyFrame ⟨[⟨List.replicate 1514 0, true⟩], 0, 1514⟩ 1#32) := by
  intro inside
  have data : dataBytes ⟨[⟨List.replicate 1514 0, true⟩], 0, 1514⟩ = List.replicate 1514 0 := by
    rw [dataBytes, chainBytes, List.flatMap_singleton]
    exact List.take_of_length_le (Nat.le_of_eq List.length_replicate)
  have mapped : ∀ mdl ∈ [Mdl.mk (List.replicate 1514 0) true], mdl.mapped = true := by
    intro mdl member
    rw [List.mem_singleton.mp member]
  rw [srCopyFrame_mapped mapped, data] at inside
  have long : p8021MacLen ≤ (List.replicate 1514 (0 : UInt8)).length := by
    rw [List.length_replicate]
    decide
  have tagged : isTagged 1#32 (List.replicate 1514 0) = true := isTagged_long (by decide) long
  have count : (frameOf 1#32 (List.replicate 1514 0)).data.length + 2 =
      (frameOf 1#32 (List.replicate 1514 0)).count := frameOf_tagged_short tagged
  have whole : (frameOf 1#32 (List.replicate 1514 0)).count = 1518 := by
    rw [frameOf, if_neg (by simp)]
    change max (layoutCount 1#32 (List.replicate 1514 0)) ethMinPacketSize = 1518
    rw [layoutCount, tagged, if_pos rfl, List.length_replicate]
    rfl
  exact absurd (inside 1514 (by omega)) (Nat.lt_irrefl 1514)

end Tag

end Venet
