import AlacrityDrivers.Venet.OidQuery
import AlacrityDrivers.Venet.OidSet

namespace Venet

structure Settings where
  packetFilter : BitVec 32
  lookAhead : BitVec 32
  multicast : List (Bytes ethLengthOfAddress)
  supported : packetFilter &&& ~~~nicSupportedFilters = 0#32
  bounded : multicast.length ≤ nicMaxMcastList

def addresses : Nat → List UInt8 → List (Bytes ethLengthOfAddress)
  | 0, _ => []
  | count + 1, b =>
    moveMemory (zeroMemory ethLengthOfAddress) (b.take ethLengthOfAddress) (List.length_take_le _ _) ::
      addresses count (b.drop ethLengthOfAddress)

theorem addresses_length (count : Nat) (b : List UInt8) : (addresses count b).length = count := by
  induction count generalizing b with
  | zero => rfl
  | succ count ih => rw [addresses, List.length_cons, ih]

def flat (multicast : List (Bytes ethLengthOfAddress)) : List UInt8 :=
  (multicast.map Subtype.val).flatten

theorem flat_addresses (count : Nat) (b : List UInt8) (length : b.length = count * ethLengthOfAddress) :
    flat (addresses count b) = b := by
  induction count generalizing b with
  | zero =>
    rw [Nat.zero_mul, List.length_eq_zero_iff] at length
    rw [length]
    rfl
  | succ count ih =>
    rw [Nat.succ_mul] at length
    have first : (b.take ethLengthOfAddress).length = ethLengthOfAddress := by
      rw [List.length_take]
      omega
    have rest : (b.drop ethLengthOfAddress).length = count * ethLengthOfAddress := by
      rw [List.length_drop]
      omega
    have tail := ih (b.drop ethLengthOfAddress) rest
    rw [flat] at tail
    rw [flat, addresses, List.map_cons, List.flatten_cons, tail, moveMemory_zeroed, first, Nat.sub_self,
      List.replicate_zero, List.append_nil, List.take_append_drop]

/-- A set request of the right form takes effect, and no other request does. -/
def Settings.request (s : Settings) (r : OidRequest) : Settings :=
  match r.requestType, r.oid with
  | .setInformation, .oid8023MulticastList =>
    if fits : r.buffer.length % ethLengthOfAddress = 0 ∧
        r.buffer.length ≤ nicMaxMcastList * ethLengthOfAddress then
      { s with
        multicast := addresses (r.buffer.length / ethLengthOfAddress) r.buffer
        bounded := by
          rw [addresses_length]
          exact Nat.div_le_of_le_mul (by rw [Nat.mul_comm]; exact fits.2) }
    else s
  | .setInformation, .genCurrentPacketFilter =>
    if right : r.buffer.length = sizeofULong ∧
        readULong r.buffer &&& ~~~nicSupportedFilters = 0#32 then
      { s with packetFilter := readULong r.buffer, supported := right.2 }
    else s
  | .setInformation, .genCurrentLookahead =>
    if r.buffer.length = sizeofULong then { s with lookAhead := readULong r.buffer } else s
  | _, _ => s

/-- The adapter holds the settings, with the multicast list padded by zeros. -/
structure Holds (a : OidData) (s : Settings) : Prop where
  packetFilter : a.packetFilter = s.packetFilter
  lookAhead : a.lookAhead = s.lookAhead
  mcSize : a.mcSize = s.multicast.length
  mcArray : a.mcArray.val = flat s.multicast ++
    List.replicate ((nicMaxMcastList - s.multicast.length) * ethLengthOfAddress) 0

section Requests

variable {a : OidData} {s : Settings} {oid : Oid} {r : OidRequest}

theorem multicast_holds (holds : Holds a s) (b : List UInt8) (bytes needed : Nat) :
    Holds (setMcastList a b).adapter
      (s.request ⟨.setInformation, .oid8023MulticastList, b, bytes, needed⟩) := by
  unfold setMcastList Settings.request
  dsimp only
  by_cases divides : b.length % ethLengthOfAddress = 0
  · rw [if_neg (not_not.mpr divides)]
    by_cases fits : b.length ≤ nicMaxMcastList * ethLengthOfAddress
    · rw [dif_pos fits, dif_pos ⟨divides, fits⟩]
      have whole : b.length = b.length / ethLengthOfAddress * ethLengthOfAddress :=
        (Nat.div_mul_cancel (Nat.dvd_of_mod_eq_zero divides)).symm
      refine ⟨holds.packetFilter, holds.lookAhead, (addresses_length _ _).symm, ?_⟩
      rw [moveMemory_zeroed, flat_addresses _ _ whole, addresses_length, Nat.sub_mul, ← whole]
    · rw [dif_neg fits, dif_neg fun both => fits both.2]
      exact holds
  · rw [if_pos divides, dif_neg fun both => divides both.1]
    exact holds

theorem filter_holds (holds : Holds a s) (b : List UInt8) (bytes needed : Nat) :
    Holds (venetOidSet a .genCurrentPacketFilter b).adapter
      (s.request ⟨.setInformation, .genCurrentPacketFilter, b, bytes, needed⟩) := by
  unfold venetOidSet Settings.request
  dsimp only
  by_cases length : b.length = sizeofULong
  · rw [if_pos length]
    unfold setPktFilter
    by_cases supported : readULong b &&& ~~~nicSupportedFilters = 0#32
    · rw [if_neg (not_not.mpr supported), dif_pos ⟨length, supported⟩]
      split
      · exact ⟨rfl, holds.lookAhead, holds.mcSize, holds.mcArray⟩
      · rename_i same
        exact ⟨(not_not.mp same).symm, holds.lookAhead, holds.mcSize, holds.mcArray⟩
    · rw [if_pos supported, dif_neg fun both => supported both.2]
      exact holds
  · rw [if_neg length, dif_neg fun both => length both.1]
    exact holds

theorem lookahead_holds (holds : Holds a s) (b : List UInt8) (bytes needed : Nat) :
    Holds (venetOidSet a .genCurrentLookahead b).adapter
      (s.request ⟨.setInformation, .genCurrentLookahead, b, bytes, needed⟩) := by
  unfold venetOidSet Settings.request
  dsimp only
  split
  · exact ⟨holds.packetFilter, rfl, holds.mcSize, holds.mcArray⟩
  · exact holds

theorem venetOidQuery_adapter (a : OidData) (oid : Oid) (b : List UInt8) :
    (venetOidQuery a oid b).adapter = a := by
  rcases venetOidQuery_answer a oid with unsupported | ⟨refusal, p, _, answers⟩
  · rw [unsupported]
  · rw [answers, answer]
    split
    · rfl
    · rfl

theorem request_holds (holds : Holds a s) (r : OidRequest) :
    Holds (venetOidRequest a r).adapter (s.request r) := by
  obtain ⟨requestType, oid, b, bytes, needed⟩ := r
  cases requestType with
  | setInformation =>
    cases oid with
    | oid8023MulticastList => exact multicast_holds holds b bytes needed
    | genCurrentPacketFilter => exact filter_holds holds b bytes needed
    | genCurrentLookahead => exact lookahead_holds holds b bytes needed
    | _ => exact holds
  | other => exact holds
  | _ =>
    unfold venetOidRequest
    dsimp only
    rw [venetOidQuery_adapter]
    exact holds

theorem requests_hold (holds : Holds a s) (requests : List OidRequest) :
    Holds (requests.foldl (fun a r => (venetOidRequest a r).adapter) a)
      (requests.foldl Settings.request s) := by
  induction requests generalizing a s with
  | nil => exact holds
  | cons first rest ih => exact ih (request_holds holds first)

theorem foldr_littleEndian (size value : Nat) :
    (littleEndian size value).foldr (fun byte value => byte.toNat + 256 * value) 0 =
      value % 256 ^ size := by
  induction size generalizing value with
  | zero => rw [littleEndian, List.foldr_nil, Nat.pow_zero, Nat.mod_one]
  | succ size ih =>
    have low : (UInt8.ofNat (value % 256)).toNat = value % 256 := by
      rw [UInt8.toNat_ofNat']
      exact Nat.mod_eq_of_lt (Nat.mod_lt _ (by decide))
    rw [littleEndian, List.foldr_cons, ih, low, Nat.pow_succ', Nat.mod_mul]

theorem readULong_overwrite (value : BitVec 32) (buf : List UInt8) :
    readULong (overwrite buf (uLongBytes value)) = value := by
  have length : (uLongBytes value).length = sizeofULong := littleEndian_length _ _
  have bound : value.toNat < 256 ^ sizeofULong := value.isLt
  rw [readULong, overwrite, List.take_append_of_le_length (Nat.le_of_eq length.symm),
    List.take_of_length_le (Nat.le_of_eq length), uLongBytes, foldr_littleEndian,
    Nat.mod_eq_of_lt bound, BitVec.ofNat_toNat, BitVec.setWidth_eq]

theorem query_value (value : BitVec 32) (named : queryBytes a oid = some (uLongBytes value))
    (other : oid ≠ .genStatistics) (moderation : oid ≠ .genInterruptModeration) {b : List UInt8}
    (room : sizeofULong ≤ b.length) :
    (venetOidQuery a oid b).status = .success ∧ readULong (venetOidQuery a oid b).buffer = value := by
  have fits : (uLongBytes value).length ≤ b.length := by
    rw [uLongBytes, littleEndian_length]
    exact room
  have replied : venetOidQuery a oid b =
      ⟨.success, a, overwrite b (uLongBytes value), (uLongBytes value).length, 0⟩ := by
    unfold venetOidQuery
    split
    · exact absurd rfl other
    · exact absurd rfl moderation
    · rw [named]
      exact if_pos fits
  rw [replied]
  exact ⟨rfl, readULong_overwrite value b⟩

def SettingsOnly (before after : OidData) : Prop :=
  after = { before with
    packetFilter := after.packetFilter
    lookAhead := after.lookAhead
    mcSize := after.mcSize
    mcArray := after.mcArray }

theorem SettingsOnly.trans {middle after : OidData} (first : SettingsOnly a middle)
    (second : SettingsOnly middle after) : SettingsOnly a after := by
  rw [SettingsOnly] at first second ⊢
  rw [second, first]

theorem request_settingsOnly (a : OidData) (r : OidRequest) :
    SettingsOnly a (venetOidRequest a r).adapter := by
  unfold venetOidRequest
  split
  · rw [venetOidQuery_adapter]
    rfl
  · rw [venetOidQuery_adapter]
    rfl
  · unfold venetOidSet
    split
    · unfold setMcastList
      split
      · rfl
      · split
        · rfl
        · rfl
    · split
      · rcases setPktFilter_cases a (readULong r.buffer) with refused | stored
        · rw [refused]
          rfl
        · rw [stored]
          rfl
      · rfl
    · split
      · rfl
      · rfl
    · rfl
    · rfl
  · rfl

theorem requests_settingsOnly (a : OidData) (requests : List OidRequest) :
    SettingsOnly a (requests.foldl (fun a r => (venetOidRequest a r).adapter) a) := by
  induction requests generalizing a with
  | nil => rfl
  | cons first rest ih => exact (request_settingsOnly a first).trans (ih _)

end Requests

/-- After any requests the adapter holds what the set requests of the right form make of its settings,
    and nothing else of it has changed; a query of the filter or the lookahead tells it. A lookahead of
    four bytes counts, although it is answered with `NDIS_STATUS_INVALID_LENGTH`. -/
theorem oid_store {a : OidData} {s : Settings} (holds : Holds a s) (requests : List OidRequest) :
    let after := requests.foldl (fun a r => (venetOidRequest a r).adapter) a
    let settings := requests.foldl Settings.request s
    Holds after settings ∧ SettingsOnly a after ∧
      ∀ r : OidRequest, r.requestType.isQuery = true → sizeofULong ≤ r.buffer.length →
        (r.oid = .genCurrentPacketFilter → (venetOidRequest after r).status = .success ∧
          readULong (venetOidRequest after r).buffer = settings.packetFilter) ∧
        (r.oid = .genCurrentLookahead → (venetOidRequest after r).status = .success ∧
          readULong (venetOidRequest after r).buffer = settings.lookAhead) := by
  intro after settings
  have held : Holds after settings := requests_hold holds requests
  refine ⟨held, requests_settingsOnly a requests, ?_⟩
  intro r query room
  have asked : venetOidRequest after r = venetOidQuery after r.oid r.buffer :=
    request_query after query r.buffer
  rw [asked, ← held.packetFilter, ← held.lookAhead]
  constructor
  · intro filter
    rw [filter]
    exact query_value after.packetFilter rfl (by decide) (by decide) room
  · intro lookahead
    rw [lookahead]
    exact query_value after.lookAhead rfl (by decide) (by decide) room

def freshSettings : Settings where
  packetFilter := 0#32
  lookAhead := 1500#32
  multicast := []
  supported := rfl
  bounded := Nat.zero_le _

theorem fresh_holds : Holds freshAdapter freshSettings := ⟨rfl, rfl, rfl, rfl⟩

def setAndQuery : List OidRequest :=
  [⟨.setInformation, .genCurrentPacketFilter, [5, 0, 0, 0], 0, 0⟩,
    ⟨.setInformation, .oid8023MulticastList, [1, 0, 94, 0, 0, 1, 1, 0, 94, 0, 0, 2], 0, 0⟩,
    ⟨.setInformation, .genCurrentPacketFilter, [0, 1, 0, 0], 0, 0⟩]

theorem oid_store_filter :
    readULong (venetOidRequest (setAndQuery.foldl (fun a r => (venetOidRequest a r).adapter)
      freshAdapter) ⟨.queryInformation, .genCurrentPacketFilter, [9, 9, 9, 9, 9], 0, 0⟩).buffer =
        5#32 :=
  (((oid_store fresh_holds setAndQuery).2.2
    ⟨.queryInformation, .genCurrentPacketFilter, [9, 9, 9, 9, 9], 0, 0⟩ rfl (by decide)).1 rfl).2.trans
      (by decide)

end Venet
