/-
# AsterKV.Network.TcpEndpoint -- `host:port`

The text is cut at its only colon; the port passes through a 32-bit parse and a range
check before it is narrowed to 16 bits.  `parseTcpEndpoint_iff` is what that accepts, and
nothing is lost on the way: the port of an accepted text is the number its digits denote.
-/
import AsterKV.Core.FromChars

namespace AsterKV.Network

open AsterKV.Core

set_option autoImplicit false

def defaultClientPort : UInt16 := 7721

structure TcpEndpoint where
  host : Bytes
  port : UInt16
  deriving DecidableEq, Repr

def maxTcpPort : Nat := 65535

def colon : UInt8 := byte ':'

def invalidEndpointFormat : Status :=
  .invalidArgument (bytes "tcp endpoint must use host:port format")

def invalidEndpointPort : Status :=
  .invalidArgument (bytes "tcp endpoint must be in range 1..65535")

def parseTcpEndpoint (value : Bytes) : Result TcpEndpoint :=
  let separatorPosition := value.idxOf colon
  if colon ∉ value ∨ separatorPosition = 0 ∨ separatorPosition + 1 ≥ value.length then
    .failure invalidEndpointFormat
  else if colon ∈ value.drop (separatorPosition + 1) then .failure invalidEndpointFormat
  else
    let host := value.take separatorPosition
    let portText := value.drop (separatorPosition + 1)
    let parseResult := fromChars (2 ^ 32 - 1) portText
    if parseResult.ec ≠ none ∨ parseResult.ptr ≠ portText.length ∨
        parseResult.parsedValue = 0 ∨ parseResult.parsedValue > maxTcpPort then
      .failure invalidEndpointPort
    else .success { host := host, port := UInt16.ofNat parseResult.parsedValue }

def tcpEndpointToString (endpoint : TcpEndpoint) : Bytes :=
  endpoint.host ++ bytes ":" ++ toDecimal endpoint.port.toNat

/-! ## The texts of an endpoint -/

/-- A host without a colon, a colon, and a numeral from 1 to 65535. -/
structure EndpointText (value host portText : Bytes) (port : Nat) : Prop where
  parts : value = host ++ colon :: portText
  filled : host ≠ []
  oneColon : colon ∉ host
  numeral : Numeral portText port
  positive : 1 ≤ port
  small : port ≤ maxTcpPort

theorem colon_notMem_of_numeral {text : Bytes} {n : Nat} (numeral : Numeral text n) :
    colon ∉ text := fun member => absurd (numeral.digits colon member) (by decide)

/-- The port is a numeral in range, and is not cut down when it is narrowed. -/
theorem port_iff {portText : Bytes} {port : UInt16} :
    (¬ ((fromChars (2 ^ 32 - 1) portText).ec ≠ none ∨
        (fromChars (2 ^ 32 - 1) portText).ptr ≠ portText.length ∨
        (fromChars (2 ^ 32 - 1) portText).parsedValue = 0 ∨
        (fromChars (2 ^ 32 - 1) portText).parsedValue > maxTcpPort) ∧
      UInt16.ofNat (fromChars (2 ^ 32 - 1) portText).parsedValue = port) ↔
      Numeral portText port.toNat ∧ 1 ≤ port.toNat ∧ port.toNat ≤ maxTcpPort := by
  simp only [ne_eq, not_or, not_not]
  constructor
  · rintro ⟨⟨ec, ptr, positive, small⟩, narrowed⟩
    have numeral := (fromChars_whole_iff.1 ⟨ec, ptr, rfl⟩).1
    have same : port.toNat = (fromChars (2 ^ 32 - 1) portText).parsedValue := by
      rw [← narrowed, UInt16.toNat_ofNat']
      unfold maxTcpPort at small
      omega
    rw [same]
    exact ⟨numeral, by omega, by omega⟩
  · rintro ⟨numeral, positive, small⟩
    have fits : port.toNat ≤ 2 ^ 32 - 1 := by
      unfold maxTcpPort at small
      omega
    obtain ⟨ec, ptr, parsed⟩ := fromChars_whole_iff.2 ⟨numeral, fits⟩
    rw [parsed]
    exact ⟨⟨ec, ptr, by omega, by omega⟩, UInt16.ofNat_toNat⟩

/-- What is read of a text with a colon, by what stands before its first one. -/
theorem parseTcpEndpoint_parts {host rest : Bytes} (oneColon : colon ∉ host) :
    parseTcpEndpoint (host ++ colon :: rest) =
      if host = [] ∨ rest = [] ∨ colon ∈ rest then .failure invalidEndpointFormat
      else
        let parseResult := fromChars (2 ^ 32 - 1) rest
        if parseResult.ec ≠ none ∨ parseResult.ptr ≠ rest.length ∨
            parseResult.parsedValue = 0 ∨ parseResult.parsedValue > maxTcpPort then
          .failure invalidEndpointPort
        else .success { host := host, port := UInt16.ofNat parseResult.parsedValue } := by
  obtain ⟨separator, hostPart, portPart⟩ := parts_at_first oneColon rest
  have present : colon ∈ host ++ colon :: rest := by simp
  have long : host.length + 1 ≥ (host ++ colon :: rest).length ↔ rest = [] := by
    rw [List.length_append, List.length_cons, ← List.length_eq_zero_iff]
    omega
  simp only [parseTcpEndpoint, separator, hostPart, portPart, present, long, not_true_eq_false,
    false_or, List.length_eq_zero_iff]
  by_cases noHost : host = []
  · simp only [noHost, true_or, if_true]
  · by_cases noPort : rest = []
    · simp only [noPort, true_or, or_true, if_true]
    · simp only [noHost, noPort, false_or, if_false]

/-- **What is accepted.** -/
theorem parseTcpEndpoint_iff {value : Bytes} {endpoint : TcpEndpoint} :
    parseTcpEndpoint value = .success endpoint ↔
      ∃ portText, EndpointText value endpoint.host portText endpoint.port.toNat := by
  obtain ⟨host, port⟩ := endpoint
  constructor
  · intro accepted
    by_cases present : colon ∈ value
    · obtain ⟨before, rest, rfl, oneColon⟩ := List.eq_append_cons_of_mem present
      rw [parseTcpEndpoint_parts oneColon] at accepted
      split at accepted
      · cases accepted
      · rename_i parts
        simp only at accepted
        split at accepted
        · cases accepted
        · rename_i inRange
          cases Except.ok.inj accepted
          obtain ⟨numeral, positive, small⟩ := port_iff.1 ⟨inRange, rfl⟩
          exact ⟨rest, rfl, fun none => parts (Or.inl none), oneColon, numeral, positive, small⟩
    · rw [parseTcpEndpoint, if_pos (Or.inl present)] at accepted
      cases accepted
  · rintro ⟨portText, text⟩
    have parts : ¬ (host = [] ∨ portText = [] ∨ colon ∈ portText) := by
      rintro (none | none | colon)
      · exact text.filled none
      · exact text.numeral.filled none
      · exact colon_notMem_of_numeral text.numeral colon
    obtain ⟨inRange, same⟩ := port_iff.2 ⟨text.numeral, text.positive, text.small⟩
    rw [text.parts, parseTcpEndpoint_parts text.oneColon, if_neg parts]
    simp only [inRange, if_false, same]

/-- A printed endpoint is a text of it. -/
theorem endpointText_toString {endpoint : TcpEndpoint} (filled : endpoint.host ≠ [])
    (oneColon : colon ∉ endpoint.host) (positive : 1 ≤ endpoint.port.toNat) :
    EndpointText (tcpEndpointToString endpoint) endpoint.host (toDecimal endpoint.port.toNat)
      endpoint.port.toNat where
  parts := by
    show endpoint.host ++ [colon] ++ _ = _
    rw [List.append_assoc, List.singleton_append]
  filled := filled
  oneColon := oneColon
  numeral := numeral_toDecimal _
  positive := positive
  small := by
    have := endpoint.port.toNat_lt
    unfold maxTcpPort
    omega

/-- **Endpoint texts and endpoints.**  A printed endpoint is read back; the texts that are
read are the hosts without a colon, a colon and a numeral from 1 to 65535, whatever its
length; and printing what such a text is read as drops the leading zeros of its port. -/
theorem endpoint_texts :
    (∀ endpoint : TcpEndpoint, endpoint.host ≠ [] → colon ∉ endpoint.host →
      1 ≤ endpoint.port.toNat →
      parseTcpEndpoint (tcpEndpointToString endpoint) = .success endpoint) ∧
    (∀ value endpoint, parseTcpEndpoint value = .success endpoint ↔
      ∃ portText, EndpointText value endpoint.host portText endpoint.port.toNat) ∧
    ∀ value host portText port, EndpointText value host portText port →
      ∃ endpoint : TcpEndpoint, parseTcpEndpoint value = .success endpoint ∧
        endpoint.host = host ∧ endpoint.port.toNat = port ∧
        tcpEndpointToString endpoint =
          host ++ colon :: portText.dropWhile (· == byte '0') := by
  refine ⟨fun endpoint filled oneColon positive => ?_, fun value endpoint => parseTcpEndpoint_iff,
    fun value host portText port text => ?_⟩
  · exact parseTcpEndpoint_iff.2 ⟨_, endpointText_toString filled oneColon positive⟩
  · have narrowed : (UInt16.ofNat port).toNat = port := by
      have := text.small
      rw [UInt16.toNat_ofNat']
      unfold maxTcpPort at this
      omega
    refine ⟨⟨host, UInt16.ofNat port⟩, ?_, rfl, narrowed, ?_⟩
    · refine parseTcpEndpoint_iff.2 ⟨portText, ?_⟩
      rw [narrowed]
      exact text
    · have positive := text.positive
      have printed := text.numeral.toDecimal_eq (by omega)
      show host ++ [colon] ++ toDecimal (UInt16.ofNat port).toNat = _
      rw [narrowed, printed, List.append_assoc, List.singleton_append]

end AsterKV.Network
