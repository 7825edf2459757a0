import AlacrityDrivers.Venet.Oid

namespace Venet

def Assigns (before after : OidData) (oid : Oid) (buffer : List UInt8) : Prop :=
  match oid with
  | .oid8023MulticastList =>
    after.mcSize = buffer.length / ethLengthOfAddress ∧
      after.mcArray.val = after.mcArray.val.take (after.mcSize * ethLengthOfAddress) ++
        List.replicate ((nicMaxMcastList - after.mcSize) * ethLengthOfAddress) 0 ∧
      after.mcArray.val.take (after.mcSize * ethLengthOfAddress) = buffer ∧
      after =
        { before with
          mcSize := after.mcSize
          mcArray := after.mcArray }
  | .genCurrentPacketFilter => after = { before with packetFilter := readULong buffer }
  | .genCurrentLookahead => after = { before with lookAhead := readULong buffer }
  | _ => after = before

/-- A set request changes what it is meant to change if it succeeds, and otherwise nothing. -/
structure SetFramed (before : OidData) (r : OidRequest) (reply : OidReply) : Prop where
  failed : reply.status ≠ .success →
    reply.adapter.packetFilter = before.packetFilter ∧ reply.adapter.lookAhead = before.lookAhead ∧
      reply.adapter.mcArray = before.mcArray ∧ reply.adapter.mcSize = before.mcSize
  succeeded : reply.status = .success → Assigns before reply.adapter r.oid r.buffer

/-- A lookahead of the right length that differs from the present one. -/
structure NewLookahead (before : OidData) (r : OidRequest) : Prop where
  oid : r.oid = .genCurrentLookahead
  length : r.buffer.length = sizeofULong
  differs : readULong r.buffer ≠ before.lookAhead

section Set

variable {before : OidData} {r : OidRequest} {reply : OidReply}

theorem framed_unchanged (failed : reply.status ≠ .success) (unchanged : reply.adapter = before) :
    SetFramed before r reply := by
  refine ⟨?_, fun success => absurd success failed⟩
  intro _
  rw [unchanged]
  exact ⟨rfl, rfl, rfl, rfl⟩

theorem framed_assigned (success : reply.status = .success)
    (assigned : Assigns before reply.adapter r.oid r.buffer) : SetFramed before r reply :=
  ⟨fun failed => absurd success failed, fun _ => assigned⟩

theorem setPktFilter_cases (a : OidData) (pf : BitVec 32) :
    setPktFilter a pf = (.notSupported, a) ∨
      setPktFilter a pf = (.success, { a with packetFilter := pf }) := by
  unfold setPktFilter
  split
  · exact Or.inl rfl
  · split
    · exact Or.inr rfl
    · rename_i same
      rw [not_not.mp same]
      exact Or.inr rfl

theorem moveMemory_zeroed {size : Nat} {src : List UInt8} (fits : src.length ≤ size) :
    (moveMemory (zeroMemory size) src fits).val = src ++ List.replicate (size - src.length) 0 := by
  change src ++ (List.replicate size 0).drop src.length = _
  rw [List.drop_replicate]

theorem setMcastList_framed (multicast : r.oid = .oid8023MulticastList) :
    SetFramed before r (setMcastList before r.buffer) := by
  unfold setMcastList
  split
  · exact framed_unchanged (fun impossible => nomatch impossible) rfl
  · rename_i divides
    have whole : r.buffer.length / ethLengthOfAddress * ethLengthOfAddress = r.buffer.length :=
      Nat.div_mul_cancel (Nat.dvd_of_mod_eq_zero (not_not.mp divides))
    split
    · rename_i fits
      apply framed_assigned rfl
      rw [multicast]
      have rest : nicMaxMcastList * ethLengthOfAddress - r.buffer.length =
          (nicMaxMcastList - r.buffer.length / ethLengthOfAddress) * ethLengthOfAddress := by
        rw [Nat.sub_mul, whole]
      have array : (moveMemory (zeroMemory (nicMaxMcastList * ethLengthOfAddress)) r.buffer fits).val =
          r.buffer ++ List.replicate
            ((nicMaxMcastList - r.buffer.length / ethLengthOfAddress) * ethLengthOfAddress) 0 := by
        rw [moveMemory_zeroed, rest]
      have entries : (moveMemory (zeroMemory (nicMaxMcastList * ethLengthOfAddress)) r.buffer fits).val.take
          (r.buffer.length / ethLengthOfAddress * ethLengthOfAddress) = r.buffer := by
        rw [array, whole, List.take_left]
      refine ⟨rfl, ?_, entries, rfl⟩
      change (moveMemory (zeroMemory (nicMaxMcastList * ethLengthOfAddress)) r.buffer fits).val =
        (moveMemory (zeroMemory (nicMaxMcastList * ethLengthOfAddress)) r.buffer fits).val.take
          (r.buffer.length / ethLengthOfAddress * ethLengthOfAddress) ++ _
      rw [entries]
      exact array
    · exact framed_unchanged (fun impossible => nomatch impossible) rfl

theorem setFilter_framed (filter : r.oid = .genCurrentPacketFilter) :
    SetFramed before r (venetOidSet before .genCurrentPacketFilter r.buffer) := by
  unfold venetOidSet
  dsimp only
  split
  · rcases setPktFilter_cases before (readULong r.buffer) with refused | stored
    · rw [refused]
      exact framed_unchanged (fun impossible => nomatch impossible) rfl
    · rw [stored]
      apply framed_assigned rfl
      rw [filter]
      rfl
  · exact framed_unchanged (fun impossible => nomatch impossible) rfl

theorem setLookahead_framed_iff (lookahead : r.oid = .genCurrentLookahead) :
    SetFramed before r (venetOidSet before .genCurrentLookahead r.buffer) ↔ ¬ NewLookahead before r := by
  unfold venetOidSet
  dsimp only
  have refused : OidStatus.invalidLength ≠ .success := by decide
  by_cases length : r.buffer.length = sizeofULong
  · rw [if_pos length]
    constructor
    · intro framed new
      exact new.differs (framed.failed refused).2.1
    · intro same
      apply framed_unchanged refused
      by_cases differs : readULong r.buffer = before.lookAhead
      · change { before with lookAhead := readULong r.buffer } = before
        rw [differs]
      · exact absurd ⟨lookahead, length, differs⟩ same
  · rw [if_neg length]
    exact iff_of_true (framed_unchanged refused rfl) (fun new => length new.length)

/-- A set request is atomic and changes its own field alone, unless it sets a new lookahead: that is
    stored behind an error status. -/
theorem oidSet_framed_iff (before : OidData) (oid : Oid) (buffer : List UInt8) (bytes needed : Nat) :
    SetFramed before ⟨.setInformation, oid, buffer, bytes, needed⟩
        (venetOidRequest before ⟨.setInformation, oid, buffer, bytes, needed⟩) ↔
      ¬ NewLookahead before ⟨.setInformation, oid, buffer, bytes, needed⟩ := by
  change SetFramed before _ (venetOidSet before oid buffer) ↔ _
  cases oid with
  | genCurrentLookahead => exact setLookahead_framed_iff rfl
  | oid8023MulticastList =>
    exact iff_of_true (setMcastList_framed rfl) (fun new => nomatch new.oid)
  | genCurrentPacketFilter =>
    exact iff_of_true (setFilter_framed rfl) (fun new => nomatch new.oid)
  | _ =>
    exact iff_of_true (framed_unchanged (fun impossible => nomatch impossible) rfl)
      (fun new => nomatch new.oid)

theorem lookahead_stored_and_refused :
    ¬ SetFramed freshAdapter ⟨.setInformation, .genCurrentLookahead, [0, 1, 0, 0], 0, 0⟩
      (venetOidRequest freshAdapter ⟨.setInformation, .genCurrentLookahead, [0, 1, 0, 0], 0, 0⟩) := by
  intro framed
  have kept := (framed.failed (by decide)).2.1
  revert kept
  decide

end Set

end Venet
