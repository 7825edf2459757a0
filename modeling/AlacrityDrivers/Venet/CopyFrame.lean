import AlacrityDrivers.Venet.Adapter

namespace Venet

def p8021MacLen : Nat := 12

def p8021ByteLen : Nat := 4

/-- `P8021_TPID_TYPE` as its two bytes lie in memory. -/
def p8021TpidType : List UInt8 := [0x81, 0x00]

def p8021BitShift : BitVec 32 := 5#32

def p8021HostMask : BitVec 32 := 0xfff8#32

def ethMinPacketSize : Nat := 60

def ethMaxPacketSize : Nat := 1514

/-- An `MDL`: the bytes it describes, and whether `NdisQueryMdl` can map them. -/
structure Mdl where
  bytes : List UInt8
  mapped : Bool

structure NetBuffer where
  mdls : List Mdl
  dataOffset : Nat
  dataLength : Nat

/-- The variables of the loop of `SrCopyFrame`; `written` is what lies between the start of
    `tcb->data` and `pDest`. -/
structure FrameCopy where
  written : List UInt8
  bytesCopied : Nat
  offset : Nat
  dataLen : Nat
  priorityLen : Nat
  macLen : Nat

/-- What `SrCopyFrame` writes from the start of `tcb->data` on, and the count it returns. -/
structure CopiedFrame where
  data : List UInt8
  count : Nat
deriving DecidableEq, Repr

def isPriority (priority : BitVec 32) : Bool := priority != 0#32 && priority &&& p8021HostMask == 0#32

def FrameCopy.move (c : FrameCopy) (src : List UInt8) : FrameCopy :=
  { c with
    written := c.written ++ src
    bytesCopied := c.bytesCopied + src.length }

/-- The MAC addresses and the tag, of which the type is written. -/
def FrameCopy.insertTag (c : FrameCopy) (src : List UInt8) : FrameCopy :=
  { c with
    written := c.written ++ src.take c.macLen ++ p8021TpidType
    bytesCopied := c.bytesCopied + c.macLen + p8021ByteLen
    priorityLen := 0
    macLen := 0 }

/-- A pass of the loop over a mapped `MDL`. -/
def copyMdl (priority : BitVec 32) (bytes : List UInt8) (c : FrameCopy) : FrameCopy :=
  if bytes.length > c.offset then
    let src := (bytes.drop c.offset).take c.dataLen
    let copied :=
      if isPriority priority && c.priorityLen != 0 then
        if src.length ≥ c.macLen then (c.insertTag src).move (src.drop c.macLen)
        else { c with macLen := c.macLen - src.length }.move src
      else c.move src
    { copied with
      offset := 0
      dataLen := c.dataLen - src.length }
  else { c with offset := c.offset - bytes.length }

def copyMdls (priority : BitVec 32) : List Mdl → FrameCopy → FrameCopy
  | [], c => c
  | mdl :: mdls, c =>
    if c.dataLen = 0 then c
    else if mdl.mapped then copyMdls priority mdls (copyMdl priority mdl.bytes c)
    else { c with bytesCopied := 0 }

def zeroTail (c : FrameCopy) : CopiedFrame :=
  if c.bytesCopied ≠ 0 ∧ c.bytesCopied < ethMinPacketSize then
    ⟨c.written ++ List.replicate (ethMinPacketSize - c.bytesCopied) 0, ethMinPacketSize⟩
  else ⟨c.written, c.bytesCopied⟩

def srCopyFrame (nb : NetBuffer) (priority : BitVec 32) : CopiedFrame :=
  zeroTail (copyMdls priority nb.mdls
    { written := []
      bytesCopied := 0
      offset := nb.dataOffset
      dataLen := nb.dataLength
      priorityLen := p8021ByteLen
      macLen := p8021MacLen })

def chainBytes (mdls : List Mdl) : List UInt8 := mdls.flatMap fun mdl => mdl.bytes

def dataBytes (nb : NetBuffer) : List UInt8 :=
  ((chainBytes nb.mdls).drop nb.dataOffset).take nb.dataLength

def p8021Tci (priority : BitVec 32) : List UInt8 :=
  [UInt8.ofNat ((priority &&& 7#32) <<< p8021BitShift).toNat, 0x00]

/-- Every `MDL` that holds one of the first `wanted` bytes of the chain, or precedes one, can be
    mapped. -/
def mappedUpTo : Nat → List Mdl → Bool
  | _, [] => true
  | wanted, mdl :: mdls => wanted == 0 || mdl.mapped && mappedUpTo (wanted - mdl.bytes.length) mdls

section Count

variable {priority : BitVec 32} {c : FrameCopy} {bytes : List UInt8} {mdls : List Mdl}

theorem move_bytesCopied (c : FrameCopy) (src : List UInt8) :
    (c.move src).bytesCopied = c.bytesCopied + src.length := rfl

theorem copyMdl_count (priority : BitVec 32) (bytes : List UInt8) (c : FrameCopy) :
    (copyMdl priority bytes c).offset + (copyMdl priority bytes c).dataLen =
        c.offset + c.dataLen - bytes.length ∧
      c.bytesCopied + c.dataLen ≤
        (copyMdl priority bytes c).bytesCopied + (copyMdl priority bytes c).dataLen := by
  unfold copyMdl
  split
  · rename_i beyond
    have length : ((bytes.drop c.offset).take c.dataLen).length =
        min c.dataLen (bytes.length - c.offset) := by
      rw [List.length_take, List.length_drop]
    simp only
    split
    · split
      · simp only [move_bytesCopied, FrameCopy.insertTag, List.length_drop, length]
        omega
      · simp only [move_bytesCopied, length]
        omega
    · simp only [move_bytesCopied, length]
      omega
  · dsimp only
    omega

theorem copyMdl_settled (priority : BitVec 32) (bytes : List UInt8) (more : c.dataLen ≠ 0)
    (done : (copyMdl priority bytes c).dataLen = 0) : (copyMdl priority bytes c).offset = 0 := by
  unfold copyMdl at done ⊢
  split
  · rfl
  · rename_i within
    rw [if_neg within] at done
    exact absurd done more

theorem mappedUpTo_cons {wanted : Nat} {mdl : Mdl} (more : wanted ≠ 0) :
    mappedUpTo wanted (mdl :: mdls) = (mdl.mapped && mappedUpTo (wanted - mdl.bytes.length) mdls) := by
  rw [mappedUpTo, beq_eq_false_iff_ne.mpr more, Bool.false_or]

theorem copyMdls_cons {mdl : Mdl} (more : c.dataLen ≠ 0) (mapped : mdl.mapped = true) :
    copyMdls priority (mdl :: mdls) c = copyMdls priority mdls (copyMdl priority mdl.bytes c) := by
  rw [copyMdls, if_neg more, if_pos mapped]

theorem copyMdls_count (priority : BitVec 32) (settled : c.dataLen = 0 → c.offset = 0)
    (enough : c.offset + c.dataLen ≤ (chainBytes mdls).length) :
    (mappedUpTo (c.offset + c.dataLen) mdls = true →
        c.bytesCopied + c.dataLen ≤ (copyMdls priority mdls c).bytesCopied) ∧
      (mappedUpTo (c.offset + c.dataLen) mdls = false →
        (copyMdls priority mdls c).bytesCopied = 0) := by
  induction mdls generalizing c with
  | nil =>
    have nothing : c.offset + c.dataLen ≤ 0 := enough
    refine ⟨?_, fun impossible => absurd impossible (by simp [mappedUpTo])⟩
    intro _
    change c.bytesCopied + c.dataLen ≤ c.bytesCopied
    omega
  | cons mdl mdls ih =>
    by_cases done : c.dataLen = 0
    · have start := settled done
      rw [copyMdls, if_pos done, done, start]
      refine ⟨fun _ => Nat.le_refl _, fun impossible => absurd impossible (by simp [mappedUpTo])⟩
    · rw [mappedUpTo_cons (by omega)]
      cases mapped : mdl.mapped with
      | false =>
        refine ⟨fun impossible => absurd impossible (by simp), ?_⟩
        intro _
        rw [copyMdls, if_neg done, if_neg (by simp [mapped])]
      | true =>
        rcases copyMdl_count priority mdl.bytes c with ⟨wanted, counted⟩
        have rest : (copyMdl priority mdl.bytes c).offset + (copyMdl priority mdl.bytes c).dataLen ≤
            (chainBytes mdls).length := by
          have whole : (chainBytes (mdl :: mdls)).length =
              mdl.bytes.length + (chainBytes mdls).length := by
            rw [chainBytes, List.flatMap_cons, List.length_append]
            rfl
          omega
        rcases ih (copyMdl_settled priority mdl.bytes done) rest with ⟨copied, failed⟩
        rw [wanted] at copied failed
        rw [copyMdls_cons done mapped, Bool.true_and]
        refine ⟨?_, failed⟩
        intro all
        exact Nat.le_trans counted (copied all)

theorem zeroTail_count_eq_zero (c : FrameCopy) : (zeroTail c).count = 0 ↔ c.bytesCopied = 0 := by
  unfold zeroTail
  split
  · rename_i short
    exact ⟨fun impossible => absurd impossible (Nat.succ_ne_zero 59), fun zero => absurd zero short.1⟩
  · exact Iff.rfl

/-- `SrCopyFrame` reports a failure exactly when an `MDL` that holds data, or precedes one that does,
    cannot be mapped. -/
theorem srCopyFrame_fails_iff {nb : NetBuffer} (priority : BitVec 32) (some : 0 < nb.dataLength)
    (enough : nb.dataOffset + nb.dataLength ≤ (chainBytes nb.mdls).length) :
    (srCopyFrame nb priority).count = 0 ↔
      mappedUpTo (nb.dataOffset + nb.dataLength) nb.mdls = false := by
  let copy : FrameCopy := ⟨[], 0, nb.dataOffset, nb.dataLength, p8021ByteLen, p8021MacLen⟩
  have settled : copy.dataLen = 0 → copy.offset = 0 := by
    intro none
    exact absurd none (Nat.ne_of_gt some)
  rcases copyMdls_count priority settled enough with ⟨copied, failed⟩
  rw [srCopyFrame, zeroTail_count_eq_zero]
  constructor
  · intro zero
    by_contra mapped
    have count : 0 + nb.dataLength ≤ (copyMdls priority nb.mdls copy).bytesCopied :=
      copied (by simpa using mapped)
    have none : (copyMdls priority nb.mdls copy).bytesCopied = 0 := zero
    omega
  · exact failed

end Count

end Venet
