/-
# AsterKV.Asterd.LocalMode -- the daemon without a network

With `--local` the daemon reads command lines from its standard input, or takes one from
its arguments, and prints the protocol's responses.  Over its lines it is the map machine
(`local_refines_map`), and it prints what a server would send for the same bytes, except
for the lines it treats in its own way: empty ones, `quit` and `exit`
(`local_eq_served_iff`).
-/
import AsterKV.Network.Chunking
import AsterKV.Pipeline.MapMachine

namespace AsterKV.Asterd

open AsterKV.Core AsterKV.Network AsterKV.Pipeline AsterKV.Protocol AsterKV.Storage
open Theory

set_option autoImplicit false

/-! ## The mode -/

/-- `joinArguments` on the arguments from its start on. -/
def joinArguments : List Bytes → Bytes
  | [] => []
  | [argument] => argument
  | argument :: rest => argument ++ [space] ++ joinArguments rest

/-- What `printProtocolResponse` writes. -/
def printProtocolResponse (response : Bytes) : Bytes :=
  response ++ if endsWith response lineFeed then [] else [lineFeed]

/-- What `runLocalSingleCommand` writes, given the arguments behind `--local`. -/
def runLocalSingleCommand (arguments : List Bytes) : Bytes :=
  printProtocolResponse (processLine InMemoryStorage.empty (joinArguments arguments)).1

/-- A line that ends the loop. -/
def isQuitLine (line : Bytes) : Bool := line == bytes "quit" || line == bytes "exit"

/-- The loop of `runLocalStdinMode` on the lines that `getline` is going to read. -/
def localLoop : InMemoryStorage → List Bytes → Bytes
  | _, [] => []
  | storage, line :: rest =>
      if isQuitLine line then []
      else if line.isEmpty then localLoop storage rest
      else
        let (response, storage) := processLine storage line
        printProtocolResponse response ++ localLoop storage rest

/-- What `runLocalStdinMode` writes for an input. -/
def runLocalStdinMode (input : Bytes) : Bytes :=
  localLoop .empty (Lines.lines lineFeed input)

/-- `runLocalMode`, given the arguments behind `--local`. -/
def runLocalMode (arguments : List Bytes) (input : Bytes) : Bytes :=
  if arguments.isEmpty then runLocalStdinMode input else runLocalSingleCommand arguments

/-! ## A map -/

theorem endsWith_render (answer : MapMachine.Answer) : endsWith answer.render lineFeed = true := by
  have crlf : ∀ front : Bytes, endsWith (front ++ bytes "\r\n") lineFeed = true := by
    intro front
    rw [show bytes "\r\n" = [carriageReturn] ++ [lineFeed] from rfl, ← List.append_assoc,
      endsWith_snoc]
    decide
  cases answer with
  | pong | ok | notFound => decide
  | stored value => exact crlf _
  | present found => cases found <;> decide
  | invalidArgument reason => exact crlf _

/-- Every response ends with its own line feed. -/
theorem printProtocolResponse_eq (storage : InMemoryStorage) (line : Bytes) :
    printProtocolResponse (processLine storage line).1 = (processLine storage line).1 := by
  rw [(processLine_eq_step storage line).1, printProtocolResponse, endsWith_render, if_pos rfl,
    List.append_nil]

/-- The lines the loop hands to the pipeline. -/
def localCommands (lines : List Bytes) : List Bytes :=
  (lines.takeWhile (!isQuitLine ·)).filter (!·.isEmpty)

theorem localLoop_eq (storage : InMemoryStorage) (lines : List Bytes) :
    localLoop storage lines = (Machine.run processLine storage (localCommands lines)).1.flatten := by
  induction lines generalizing storage with
  | nil => rfl
  | cons line rest ih =>
      rw [localLoop, localCommands, List.takeWhile_cons]
      cases quits : isQuitLine line with
      | true => rfl
      | false =>
          simp only [Bool.not_false, if_true, Bool.false_eq_true, if_false]
          cases empty : line.isEmpty with
          | true =>
              rw [List.filter_cons_of_neg (by simp [empty])]
              exact ih storage
          | false =>
              rw [List.filter_cons_of_pos (by simp [empty]), Machine.run_cons, List.flatten_cons]
              simp only [Bool.false_eq_true, if_false]
              rw [printProtocolResponse_eq, ih]
              rfl

/-- **The local mode is a finite map.**  Whatever the input, what is written is the map's
answers to the lines before the first `quit` or `exit`, the empty ones left out. -/
theorem local_refines_map (input : Bytes) :
    runLocalStdinMode input =
      ((Machine.run MapMachine.step ∅ (localCommands (Lines.lines lineFeed input))).1.map
        MapMachine.Answer.render).flatten := by
  rw [runLocalStdinMode, localLoop_eq]
  exact congrArg List.flatten (run_processLine .empty _).1

/-! ## The server's responses -/

/-- The carriage return that the server takes off separates no words. -/
theorem processLine_stripCarriageReturn {σ : Type} [StorageEngine σ] (storage : σ) (line : Bytes) :
    processLine storage (stripCarriageReturn line) = processLine storage line := by
  have words : commandWords (stripCarriageReturn line) = commandWords line := by
    unfold stripCarriageReturn
    split
    · next ends =>
        have last := endsWith_iff.1 ends
        have shape : line.dropLast ++ [carriageReturn] = line :=
          List.dropLast_append_getLast? _ last
        have blank : Words.Blank isAsciiWhitespace [carriageReturn] := by
          intro a member
          rw [List.mem_singleton.1 member]
          decide
        conv_rhs => rw [← shape]
        exact (Words.words_append_blank _ blank).symm
    · rfl
  have parsed : parseCommandLine (stripCarriageReturn line) = parseCommandLine line := by
    rw [parseCommandLine_eq, parseCommandLine_eq, words]
  unfold processLine
  rw [parsed]

theorem run_stripCarriageReturn {σ : Type} [StorageEngine σ] (storage : σ) (lines : List Bytes) :
    Machine.run processLine storage (lines.map stripCarriageReturn) =
      Machine.run processLine storage lines := by
  have same : (fun (s : σ) line => processLine s (stripCarriageReturn line)) = processLine :=
    funext fun s => funext fun line => processLine_stripCarriageReturn s line
  rw [← Machine.run_map, same]

/-- An ordinary line for both modes. -/
def Ordinary (line : Bytes) : Prop := isQuitLine line = false ∧ line ≠ []

/-- The loop writes the responses of all lines, or less when one is not ordinary. -/
theorem localLoop_length (storage : InMemoryStorage) (lines : List Bytes) :
    ((∀ line ∈ lines, Ordinary line) →
      localLoop storage lines = (Machine.run processLine storage lines).1.flatten) ∧
    ((¬ ∀ line ∈ lines, Ordinary line) →
      (localLoop storage lines).length <
        (Machine.run processLine storage lines).1.flatten.length) := by
  induction lines generalizing storage with
  | nil => exact ⟨fun _ => rfl, fun no => absurd (fun _ member => absurd member List.not_mem_nil) no⟩
  | cons line rest ih =>
      have some : 0 < (processLine storage line).1.length :=
        List.length_pos_iff.2 (processLine_ne_nil storage line)
      rw [Machine.run_cons, List.flatten_cons, List.length_append, localLoop]
      cases quits : isQuitLine line with
      | true =>
          refine ⟨fun all => ?_, fun _ => ?_⟩
          · cases quits.symm.trans (all line List.mem_cons_self).1
          · rw [if_pos rfl, List.length_nil]
            omega
      | false =>
          simp only [Bool.false_eq_true, if_false]
          cases line with
          | nil =>
              refine ⟨fun all => absurd rfl (all [] List.mem_cons_self).2, fun _ => ?_⟩
              have same : (processLine storage []).2 = storage :=
                congrArg Prod.snd (processLine_refused (rfl : parseCommandLine [] = .error _))
              rw [same]
              have most : (localLoop storage rest).length ≤
                  (Machine.run processLine storage rest).1.flatten.length := by
                by_cases ordinary : ∀ line ∈ rest, Ordinary line
                · rw [(ih storage).1 ordinary]
                · exact Nat.le_of_lt ((ih storage).2 ordinary)
              simp only [List.isEmpty_nil, if_true]
              omega
          | cons front more =>
              obtain ⟨equal, less⟩ := ih (processLine storage (front :: more)).2
              have here : Ordinary (front :: more) := ⟨quits, List.cons_ne_nil _ _⟩
              simp only [List.isEmpty_cons, Bool.false_eq_true, if_false,
                printProtocolResponse_eq, List.length_append]
              refine ⟨fun all => ?_, fun no => ?_⟩
              · rw [equal fun other member => all other (List.mem_cons_of_mem _ member)]
              · refine Nat.add_lt_add_left (less fun all => no ?_) _
                exact List.forall_mem_cons.2 ⟨here, all⟩

/-- **The local mode and the server.**  What the local mode writes for an input is what a
server sends on a fresh map to an undisturbed client with the same bytes, exactly when no
line is empty, `quit` or `exit`. -/
theorem local_eq_served_iff (options : TcpLineServerOptions) {socket : Socket}
    (undisturbed : Undisturbed options socket) :
    runLocalStdinMode (clientStream socket.incoming) =
        (serveClient (localPipeline InMemoryStorage) options .empty socket .never).2.output ↔
      ∀ line ∈ Lines.lines lineFeed (clientStream socket.incoming), Ordinary line := by
  have output := (undisturbed.serveClient options (localPipeline InMemoryStorage) .empty).2.1
  have served : (serveClient (localPipeline InMemoryStorage) options .empty socket .never).2.output =
      (Machine.run processLine InMemoryStorage.empty
        (Lines.lines lineFeed (clientStream socket.incoming))).1.flatten := by
    rw [output]
    show (Machine.run processLine _ (commandLines _)).1.flatten = _
    rw [commandLines, run_stripCarriageReturn]
  obtain ⟨equal, less⟩ := localLoop_length .empty
    (Lines.lines lineFeed (clientStream socket.incoming))
  rw [served]
  constructor
  · intro same
    by_contra no
    have shorter := less no
    rw [show localLoop _ _ = _ from same] at shorter
    exact Nat.lt_irrefl _ shorter
  · exact equal

/-- A line end of two bytes, a cut in the middle of a word, and a last line without its
line feed. -/
def setThenGet : Socket where
  incoming := [.received ⟨bytes "SET k v\r\nGE", by decide, by decide⟩ 0,
    .received ⟨bytes "T k", by decide, by decide⟩ 1]

theorem local_eq_served_set_get :
    (serveClient (localPipeline InMemoryStorage) {} .empty setThenGet .never).2.output =
      bytes "+OK\r\n$1\r\nv\r\n" := by
  have undisturbed : Undisturbed {} setThenGet := ⟨by decide, by decide⟩
  have lines : Lines.lines lineFeed (clientStream setThenGet.incoming) =
      [bytes "SET k v\r", bytes "GET k"] := by decide
  rw [← (local_eq_served_iff {} undisturbed).2]
  · decide
  · intro line member
    rw [lines] at member
    rcases List.mem_pair.1 member with rfl | rfl <;> exact ⟨by decide, by decide⟩

end AsterKV.Asterd
