import AlacrityDrivers.Venet.Oid

namespace Venet

def OidRequestType.isQuery : OidRequestType → Bool
  | .queryInformation => true
  | .queryStatistics => true
  | _ => false

/-- What an OID answers to every buffer: `p` where it fits, and else its length. -/
def answer (a : OidData) (refusal : OidStatus) (p buf : List UInt8) : OidReply :=
  if p.length ≤ buf.length then ⟨.success, a, overwrite buf p, p.length, 0⟩
  else ⟨refusal, a, buf, 0, p.length⟩

/-- A caller that does not know the length of an answer asks for it with a short buffer, and gets the
    answer with a buffer of that length. -/
structure Probes (a : OidData) (r : OidRequest) (reply : OidReply) : Prop where
  adapter : reply.adapter = a
  within : reply.buffer.length = r.buffer.length
  succeeded : reply.status = .success →
    reply.needed = 0 ∧ reply.bytes ≤ r.buffer.length ∧
      reply.buffer.drop reply.bytes = r.buffer.drop reply.bytes
  refused : reply.status = .invalidLength ∨ reply.status = .bufferOverflow →
    reply.bytes = 0 ∧ r.buffer.length < reply.needed ∧ reply.buffer = r.buffer ∧
      ∀ again : List UInt8, again.length = reply.needed →
        (venetOidRequest reply.adapter { r with buffer := again }).status = .success ∧
          (venetOidRequest reply.adapter { r with buffer := again }).bytes = reply.needed

section Query

variable {a : OidData} {oid : Oid} {buf p : List UInt8} {refusal : OidStatus} {r : OidRequest}

theorem littleEndian_length (size value : Nat) : (littleEndian size value).length = size := by
  induction size generalizing value with
  | zero => rfl
  | succ size ih => rw [littleEndian, List.length_cons, ih]

theorem overwrite_length (fits : p.length ≤ buf.length) : (overwrite buf p).length = buf.length := by
  rw [overwrite, List.length_append, List.length_drop]
  omega

theorem overwrite_rest (buf p : List UInt8) : (overwrite buf p).drop p.length = buf.drop p.length := by
  rw [overwrite, List.drop_left]

theorem venetGenStats_answer (a : OidData) :
    ∃ p, ∀ buf, venetGenStats a buf = answer a .bufferOverflow p buf := by
  refine ⟨objectHeader sizeofNdisStatisticsInfo ++
    List.replicate (sizeofNdisStatisticsInfo - 4) 0, ?_⟩
  intro buf
  have length : (objectHeader sizeofNdisStatisticsInfo ++
      List.replicate (sizeofNdisStatisticsInfo - 4) (0 : UInt8)).length =
        sizeofNdisStatisticsInfo := by
    rw [List.length_append, List.length_replicate, objectHeader, List.length_append,
      littleEndian_length]
    rfl
  rw [venetGenStats, answer, length]

theorem venetIntrMod_answer (a : OidData) :
    ∃ p, ∀ buf, venetIntrMod a buf = answer a .invalidLength p buf := by
  refine ⟨objectHeader sizeofNdisInterruptModerationParameters ++ uLongBytes 0#32 ++
    uLongBytes 1#32, ?_⟩
  intro buf
  have length : (objectHeader sizeofNdisInterruptModerationParameters ++ uLongBytes 0#32 ++
      uLongBytes 1#32).length = sizeofNdisInterruptModerationParameters := by
    rw [List.length_append, List.length_append, objectHeader, List.length_append, uLongBytes,
      uLongBytes, littleEndian_length, littleEndian_length, littleEndian_length]
    rfl
  rw [venetIntrMod, answer, length]
  by_cases short : buf.length < sizeofNdisInterruptModerationParameters
  · rw [if_pos short, if_neg (Nat.not_le.mpr short)]
  · rw [if_neg short, if_pos (Nat.not_lt.mp short)]

theorem venetOidQuery_answer (a : OidData) (oid : Oid) :
    (∀ buf, venetOidQuery a oid buf = ⟨.notSupported, a, buf, 0, 0⟩) ∨
      ∃ refusal p, refusal ≠ .success ∧ ∀ buf, venetOidQuery a oid buf = answer a refusal p buf := by
  by_cases statistics : oid = .genStatistics
  · rcases venetGenStats_answer a with ⟨p, answers⟩
    rw [statistics]
    exact Or.inr ⟨.bufferOverflow, p, by decide, answers⟩
  · by_cases moderation : oid = .genInterruptModeration
    · rcases venetIntrMod_answer a with ⟨p, answers⟩
      rw [moderation]
      exact Or.inr ⟨.invalidLength, p, by decide, answers⟩
    · cases source : queryBytes a oid with
      | none =>
        apply Or.inl
        intro buf
        unfold venetOidQuery
        split
        · exact absurd rfl statistics
        · exact absurd rfl moderation
        · rw [source]
      | some p =>
        refine Or.inr ⟨.invalidLength, p, by decide, ?_⟩
        intro buf
        unfold venetOidQuery
        split
        · exact absurd rfl statistics
        · exact absurd rfl moderation
        · rw [source]
          rfl

theorem answer_again (a : OidData) (refusal : OidStatus) (length : buf.length = p.length) :
    (answer a refusal p buf).status = .success ∧ (answer a refusal p buf).bytes = p.length := by
  rw [answer, if_pos (Nat.le_of_eq length.symm)]
  exact ⟨rfl, rfl⟩

theorem request_query (a : OidData) (query : r.requestType.isQuery = true) (buf : List UInt8) :
    venetOidRequest a { r with buffer := buf } = venetOidQuery a r.oid buf := by
  unfold venetOidRequest
  cases type : r.requestType with
  | queryInformation => rfl
  | queryStatistics => rfl
  | setInformation =>
    rw [type] at query
    cases query
  | other =>
    rw [type] at query
    cases query

theorem answer_probes (query : r.requestType.isQuery = true)
    (answers : ∀ buf, venetOidQuery a r.oid buf = answer a refusal p buf) (failing : refusal ≠ .success) :
    Probes a r (answer a refusal p r.buffer) := by
  by_cases fits : p.length ≤ r.buffer.length
  · rw [answer, if_pos fits]
    exact
      { adapter := rfl
        within := overwrite_length fits
        succeeded := fun _ => ⟨rfl, fits, overwrite_rest r.buffer p⟩
        refused := by
          intro impossible
          rcases impossible with length | overflow
          · cases length
          · cases overflow }
  · rw [answer, if_neg fits]
    exact
      { adapter := rfl
        within := rfl
        succeeded := fun success => absurd success failing
        refused := by
          intro _
          refine ⟨rfl, Nat.not_le.mp fits, rfl, ?_⟩
          intro again length
          rw [request_query a query, answers]
          exact answer_again a refusal length }

/-- A query tells the length it needs, leaves the adapter and the rest of the buffer alone, and
    succeeds when it is repeated with that length. -/
theorem oidQuery_probes (a : OidData) (r : OidRequest) (query : r.requestType.isQuery = true) :
    Probes a r (venetOidRequest a r) := by
  have asked : venetOidRequest a r = venetOidQuery a r.oid r.buffer := request_query a query r.buffer
  rw [asked]
  rcases venetOidQuery_answer a r.oid with unsupported | ⟨refusal, p, failing, answers⟩
  · rw [unsupported]
    exact
      { adapter := rfl
        within := rfl
        succeeded := fun impossible => nomatch impossible
        refused := by
          intro impossible
          rcases impossible with length | overflow
          · cases length
          · cases overflow }
  · rw [answers]
    exact answer_probes query answers failing

theorem oidQuery_probes_statistics :
    Probes freshAdapter ⟨.queryStatistics, .genStatistics, [1, 2, 3], 0, 0⟩
      (venetOidRequest freshAdapter ⟨.queryStatistics, .genStatistics, [1, 2, 3], 0, 0⟩) :=
  oidQuery_probes freshAdapter ⟨.queryStatistics, .genStatistics, [1, 2, 3], 0, 0⟩ rfl

end Query

end Venet
