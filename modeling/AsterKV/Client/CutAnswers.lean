/-
# AsterKV.Client.CutAnswers -- what a part of an answer is taken for

A connection that is lost leaves the client with a part of a response.  If it decodes at
all, its kind is the answer's: an error is never taken for a success, nor the other way
round.  A value or a truth value is whole; a word may be cut (`parse_part`).
-/
import AsterKV.Client.CutResponses
import AsterKV.Client.PrettyResponses

namespace AsterKV.Client

open AsterKV.Core AsterKV.Protocol

set_option autoImplicit false

theorem withoutCarriageReturn_isFront (line : Bytes) : withoutCarriageReturn line <+: line := by
  unfold withoutCarriageReturn
  split
  · exact List.dropLast_prefix line
  · exact List.prefix_refl line

/-- The first line of a part of a line is a part of it. -/
theorem line_of_part {text part : Bytes} (isPart : part <+: text ++ crlf) {firstLine : FirstLine}
    (read : readFirstLine part = .success firstLine) : firstLine.line <+: text := by
  have ending : crlf = [carriageReturn, lineFeed] := rfl
  have shape : text ++ crlf = (text ++ [carriageReturn]) ++ [lineFeed] := by simp [ending]
  rw [shape] at isPart
  have stripped : ∀ {line : Bytes}, line <+: (text ++ [carriageReturn]) ++ [lineFeed] →
      lineFeed ∉ line → withoutCarriageReturn line <+: text := by
    intro line isFront noFeed
    rcases List.prefix_concat_iff.1 isFront with rfl | inside
    · exact absurd (by simp) noFeed
    · rcases List.prefix_concat_iff.1 inside with rfl | inside
      · rw [withoutCarriageReturn_append]
      · exact (withoutCarriageReturn_isFront line).trans inside
  by_cases filled : part = []
  · rw [filled] at read
    cases read
  by_cases present : lineFeed ∈ part
  · obtain ⟨line, rest, rfl, noFeed⟩ := List.eq_append_cons_of_mem present
    rw [readFirstLine_lineFeed noFeed] at read
    rw [← Except.ok.inj read]
    exact stripped ((List.prefix_append _ _).trans isPart) noFeed
  · rw [readFirstLine_whole filled present] at read
    rw [← Except.ok.inj read]
    exact stripped isPart present

/-- **A part of a line is taken for the line with a part of its payload.** -/
theorem parseLineResponse_part {kind : ProtocolResponseKind} {front : UInt8} {value part : Bytes}
    (isPart : part <+: front :: (value ++ crlf)) {response : ProtocolResponse}
    (read : parseLineResponse kind part = .success response) :
    response.kind = kind ∧ response.value ≠ [] ∧ response.value <+: value := by
  refine ⟨kind_of_parseLineResponse read, ?_⟩
  unfold parseLineResponse at read
  split at read
  · cases read
  · next firstLine first =>
      have inLine := @line_of_part (front :: value) part isPart firstLine first
      split at read
      · cases read
      · next long =>
          have payload : response.value = firstLine.line.drop 1 := by
            simp only at read
            split at read
            · cases read
            · rw [← Except.ok.inj read]
          rw [payload]
          rcases shape : firstLine.line with _ | ⟨sign, rest⟩
          · exact absurd (by simp [shape]) long
          · rw [shape] at inLine long
            obtain ⟨-, inValue⟩ := List.cons_prefix_cons.1 inLine
            refine ⟨?_, inValue⟩
            rintro empty
            rw [List.drop_succ_cons, List.drop_zero] at empty
            simp [empty] at long

/-- A part of a bulk string is refused, or taken for the whole. -/
theorem parse_bulkPart {value part : Bytes} (isPart : part <+: serializeBulkString value)
    {response : ProtocolResponse} (read : parseProtocolResponse part = .success response) :
    response = ⟨.bulkString, value⟩ := by
  have whole : parseProtocolResponse (serializeBulkString value) = .success response := by
    by_cases same : part = serializeBulkString value
    · rwa [same] at read
    · exact (takenWhole_serializeBulkString value).parts part isPart same response read
  rw [serializeBulkString_eq] at whole
  obtain ⟨-, payload, trailing, rfl, size, shape, -⟩ := parse_bulkHeader whole
  obtain ⟨rfl, -⟩ := List.append_inj shape size.symm
  rfl

end AsterKV.Client

namespace AsterKV.Pipeline.MapMachine.Answer

open AsterKV.Core AsterKV.Client AsterKV.Protocol

/-- What a user may read of an answer whose connection is lost: the answer, or a part of a
word. -/
def ShownAs (answer : Answer) (shown : Bytes) : Prop :=
  match answer with
  | .pong => ∃ part, part ≠ [] ∧ part <+: bytes "PONG" ∧ shown = part ++ bytes "\n"
  | .ok => ∃ part, part ≠ [] ∧ part <+: bytes "OK" ∧ shown = part ++ bytes "\n"
  | other => shown = other.text

/-- **A part of an answer is refused, or taken for an answer of its kind.** -/
theorem parse_part {answer : Answer} {part : Bytes} (isPart : part <+: answer.render)
    {response : ProtocolResponse} (read : parseProtocolResponse part = .success response) :
    (response.kind = .error ↔ answer.fails = true) ∧
      (answer.fails = false → answer.ShownAs (renderPrettyResponse response)) := by
  have word : ∀ {text : Bytes}, part <+: byte '+' :: (text ++ crlf) →
      response.kind = .simpleString ∧ ∃ shown, shown ≠ [] ∧ shown <+: text ∧
        renderPrettyResponse response = shown ++ bytes "\n" := by
    intro text inText
    cases part with
    | nil => cases read
    | cons sign rest =>
        obtain rfl : sign = byte '+' := (List.cons_prefix_cons.1 inText).1
        obtain ⟨kind, filled, inValue⟩ := parseLineResponse_part inText
          (show parseLineResponse .simpleString (byte '+' :: rest) = _ from read)
        refine ⟨kind, response.value, filled, inValue, ?_⟩
        rw [renderPrettyResponse, kind]
        rfl
  have error : ∀ {text : Bytes}, part <+: byte '-' :: text → response.kind = .error := by
    intro text inText
    cases part with
    | nil => cases read
    | cons sign rest =>
        obtain rfl : sign = byte '-' := (List.cons_prefix_cons.1 inText).1
        exact kind_of_parseLineResponse
          (show parseLineResponse .error (byte '-' :: rest) = _ from read)
  cases answer with
  | pong =>
      obtain ⟨kind, shown⟩ := @word (bytes "PONG") isPart
      exact ⟨by simp [kind, fails], fun _ => shown⟩
  | ok =>
      obtain ⟨kind, shown⟩ := @word (bytes "OK") isPart
      exact ⟨by simp [kind, fails], fun _ => shown⟩
  | stored value =>
      have framed : (stored value).render = serializeBulkString value := by
        simp [serializeBulkString, render, crlf, bytes]
      rw [framed] at isPart
      obtain rfl := parse_bulkPart isPart read
      exact ⟨by simp [fails], fun _ => rfl⟩
  | notFound =>
      exact ⟨iff_of_true (error isPart) rfl, fun succeeds => by cases succeeds⟩
  | invalidArgument reason =>
      have framed : (invalidArgument reason).render =
          byte '-' :: (bytes "ERR invalid_argument " ++ reason ++ bytes "\r\n") := rfl
      rw [framed] at isPart
      exact ⟨iff_of_true (error isPart) rfl, fun succeeds => by cases succeeds⟩
  | present found =>
      have digit : ∃ text, (present found).render = byte ':' :: ([text] ++ crlf) ∧
          (present found).text = [text] ++ bytes "\n" := by
        cases found with
        | true => exact ⟨byte '1', rfl, rfl⟩
        | false => exact ⟨byte '0', rfl, rfl⟩
      obtain ⟨text, framed, shown⟩ := digit
      rw [framed] at isPart
      cases part with
      | nil => cases read
      | cons sign rest =>
          obtain rfl : sign = byte ':' := (List.cons_prefix_cons.1 isPart).1
          obtain ⟨kind, filled, inValue⟩ := parseLineResponse_part isPart
            (show parseLineResponse .integer (byte ':' :: rest) = _ from read)
          have value : response.value = [text] := by
            obtain ⟨first, more, same⟩ := List.exists_cons_of_ne_nil filled
            rw [same] at inValue ⊢
            obtain ⟨rfl, nothing⟩ := List.cons_prefix_cons.1 inValue
            rw [List.prefix_nil.1 nothing]
          refine ⟨by simp [kind, fails], fun _ => ?_⟩
          show renderPrettyResponse response = (present found).text
          rw [shown, renderPrettyResponse, kind, value]
          rfl

end AsterKV.Pipeline.MapMachine.Answer
