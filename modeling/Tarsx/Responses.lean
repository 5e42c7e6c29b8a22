/-
How the client cuts the byte stream of a server into responses.  There is no frame
around a response: whatever `doResponse` reads until the socket runs dry is handed
on as one string, and what it reads before it closes the connection is dropped.  The
responses come out whole exactly when the calls run dry where responses end and the
call that closes the connection reads nothing.
-/
import Tarsx.Foundation.Cuts
import Tarsx.Foundation.Run
import Tarsx.ResponseLoop

namespace Tarsx

open Foundation

namespace Transceiver

/-- What the `readv` calls of one `doResponse` bring before the last one.  One call
transfers less than 2^31 bytes, and all of them stay far below the size at which
`pushData` refuses. -/
structure ResponseCall where
  chunks : List (List UInt8)
  nonempty : ∀ chunk ∈ chunks, chunk ≠ []
  small : ∀ chunk ∈ chunks, chunk.length < 2 ^ 31
  bounded : chunks.flatten.length ≤ 2 ^ 62

def ResponseCall.bytes (call : ResponseCall) : List UInt8 := call.chunks.flatten

/-- A socket that epoll reports as readable, with how its `readv` calls end. -/
structure InputCall where
  call : ResponseCall
  ending : ReadEnd

namespace InputCall

def bytes (input : InputCall) : List UInt8 := input.call.bytes

def reads (input : InputCall) : List ReadResult :=
  input.call.chunks.map .data ++ [input.ending.result]

/-- Once a call has closed the connection its descriptor is -1, where every `readv`
fails. -/
def Before (input later : InputCall) : Prop :=
  input.ending = .dry ∨ later.call.chunks = [] ∧ later.ending = .error

/-- What the call leaves for `finishInvoke`. -/
def passes (input : InputCall) : List UInt8 :=
  if input.ending = .dry then input.bytes else []

end InputCall

/-- A readable socket, as a step of a machine whose output is what is passed to
`finishInvoke`. -/
def inputStep (t : Transceiver) (input : InputCall) :
    Except Fault (Transceiver × List (List UInt8)) :=
  CommunicatorEpoll.handleInputImp t input.reads

/-- Between two `doResponse` calls nothing is buffered. -/
structure Idle (t : Transceiver) : Prop where
  buffer : t.receiveBuffer.WellFormed
  empty : t.receiveBuffer.contents = []

/-- Only the receive buffer counts. -/
theorem Idle.of_eq {t t' : Transceiver} (h : Idle t)
    (hsame : t'.receiveBuffer = t.receiveBuffer) : Idle t' :=
  ⟨hsame ▸ h.buffer, hsame ▸ h.empty⟩

/-- What one call brings fits behind nothing. -/
theorem Idle.fits {t : Transceiver} (h : Idle t) (call : ResponseCall) :
    t.receiveBuffer.contents.length + call.chunks.flatten.length + readRoom <
      Buffer.maxBufferSize := by
  have hbounded := call.bounded
  have hmax : Buffer.maxBufferSize = 2 ^ 63 - 1 := rfl
  rw [h.empty, List.length_nil, readRoom]
  omega

theorem close_of_not_valid {t : Transceiver} (hvalid : t.valid = false) : t.close = t := by
  rw [close, if_neg (by rw [hvalid]; decide)]

/-- `close` on an open descriptor drops what was read. -/
theorem close_of_valid {t : Transceiver} (hvalid : t.valid = true)
    (hwell : t.receiveBuffer.WellFormed) :
    t.close.receiveBuffer.WellFormed ∧ t.close.receiveBuffer.contents = [] ∧
      t.close.valid = false := by
  rw [close, if_pos hvalid]
  obtain ⟨hclear, hnil⟩ := Buffer.clear_spec hwell
  exact ⟨hclear, hnil, rfl⟩

theorem leaves_of_ne_dry {ending : ReadEnd} (hending : ending ≠ .dry) (t : Transceiver) :
    ending.leaves t = t.close := by
  cases ending with
  | dry => contradiction
  | endOfFile => rfl
  | error => rfl

/-- The connection is open, or nothing more is read from it. -/
def Readable (t : Transceiver) (input : InputCall) : Prop :=
  t.valid = true ∨ input.call.chunks = [] ∧ input.ending = .error

/-- What the end of the reads leaves in the receive buffer. -/
theorem leaves_spec {t : Transceiver} {input : InputCall} (read : Transceiver)
    (hreadable : Readable t input) (hsame : read.valid = t.valid)
    (hwell : read.receiveBuffer.WellFormed)
    (hbytes : read.receiveBuffer.contents = input.bytes) :
    (input.ending.leaves read).receiveBuffer.WellFormed ∧
      (input.ending.leaves read).receiveBuffer.contents = input.passes ∧
      (input.ending.leaves read).valid = (t.valid && decide (input.ending = .dry)) := by
  by_cases hdry : input.ending = .dry
  · rw [InputCall.passes, if_pos hdry, hdry, ReadEnd.leaves, hsame]
    exact ⟨hwell, hbytes, (Bool.and_true _).symm⟩
  · rw [InputCall.passes, if_neg hdry, leaves_of_ne_dry hdry, decide_eq_false hdry,
      Bool.and_false]
    cases hvalid : read.valid with
    | true => exact close_of_valid hvalid hwell
    | false =>
        have hnone : input.call.chunks = [] := by
          rcases hreadable with hopen | ⟨hnone, _⟩
          · rw [← hsame, hvalid] at hopen
            contradiction
          · exact hnone
        rw [close_of_not_valid hvalid, hbytes, InputCall.bytes, ResponseCall.bytes, hnone]
        exact ⟨hwell, rfl, hvalid⟩

theorem inputStep_spec {t : Transceiver} (h : Idle t) (input : InputCall)
    (hreadable : Readable t input) :
    ∃ next, inputStep t input = .ok (next, joined input.passes) ∧ Idle next ∧
      next.valid = (t.valid && decide (input.ending = .dry)) := by
  obtain ⟨b, hloop, hwell, hcontents⟩ :=
    responseLoop_spec input.call.chunks input.ending h.buffer input.call.nonempty
      input.call.small (h.fits input.call)
  rw [h.empty, List.nil_append] at hcontents
  have hread := leaves_spec { t with receiveBuffer := b } hreadable rfl hwell hcontents
  obtain ⟨hleft, hpasses, hvalid⟩ := hread
  obtain ⟨last, hresponse, hgood, hnil⟩ := doResponse_of_loop hloop hleft
  rw [hpasses] at hresponse
  refine ⟨{ input.ending.leaves { t with receiveBuffer := b } with receiveBuffer := last }, ?_,
    ⟨hgood, hnil⟩, hvalid⟩
  have hreads : t.doResponse input.reads = _ := hresponse
  simp only [inputStep, CommunicatorEpoll.handleInputImp, hreads, bind, Except.bind]
  by_cases hnone : input.passes = []
  · rw [if_pos hnone, if_neg (by decide), hnone]
    rfl
  · rw [if_neg hnone, if_pos (by decide)]

/-- Over a run of calls the strings handed on are what the calls pass. -/
theorem trace_inputStep (inputs : List InputCall) : ∀ {t : Transceiver}, Idle t →
    (∀ input ∈ inputs, Readable t input) → inputs.Pairwise InputCall.Before →
    ∃ last passed, trace inputStep t inputs = .ok (last, passed) ∧
      passed.flatten = (inputs.map InputCall.passes).filter
        fun response => !response.isEmpty := by
  induction inputs with
  | nil =>
      intro t _ _ _
      exact ⟨t, [], rfl, rfl⟩
  | cons input rest ih =>
      intro t h hreadable hbefore
      obtain ⟨hfirst, hrest⟩ := List.pairwise_cons.mp hbefore
      obtain ⟨next, hstep, hnext, hvalid⟩ :=
        inputStep_spec h input (hreadable input List.mem_cons_self)
      have hlater : ∀ later ∈ rest, Readable next later := by
        intro later hmem
        rcases hreadable later (List.mem_cons_of_mem _ hmem) with hopen | hbroken
        · rcases hfirst later hmem with hdry | hbroken
          · exact Or.inl (by rw [hvalid, hopen, hdry]; rfl)
          · exact Or.inr hbroken
        · exact Or.inr hbroken
      obtain ⟨last, passed, htrace, hall⟩ := ih hnext hlater hrest
      refine ⟨last, _, trace_cons_of_ok hstep htrace, ?_⟩
      rw [List.flatten_cons, hall, joined, ← List.filter_append]
      rfl

/-- A call passes what it reads unless it closes the connection. -/
theorem passes_eq_bytes_iff (input : InputCall) :
    input.passes = input.bytes ↔ (input.ending ≠ .dry → input.bytes = []) := by
  rw [InputCall.passes]
  by_cases hdry : input.ending = .dry
  · rw [if_pos hdry]
    exact ⟨fun _ hnot => absurd hdry hnot, fun _ => rfl⟩
  · rw [if_neg hdry]
    exact ⟨fun hnil _ => hnil.symm, fun hnil => (hnil hdry).symm⟩

theorem length_passes_le (input : InputCall) : input.passes.length ≤ input.bytes.length := by
  rw [InputCall.passes]
  split
  · exact Nat.le_refl _
  · exact Nat.zero_le _

theorem length_flatMap_passes_le (inputs : List InputCall) :
    (inputs.flatMap InputCall.passes).length ≤ (inputs.flatMap InputCall.bytes).length := by
  induction inputs with
  | nil => exact Nat.le_refl _
  | cons input rest ih =>
      rw [List.flatMap_cons, List.flatMap_cons, List.length_append, List.length_append]
      exact Nat.add_le_add (length_passes_le input) ih

/-- All bytes come out only when each call passes what it reads. -/
theorem passes_eq_bytes_of_flatMap {inputs : List InputCall}
    (hall : inputs.flatMap InputCall.passes = inputs.flatMap InputCall.bytes) :
    ∀ input ∈ inputs, input.passes = input.bytes := by
  induction inputs with
  | nil => exact fun input hmem => absurd hmem List.not_mem_nil
  | cons first rest ih =>
      rw [List.flatMap_cons, List.flatMap_cons] at hall
      have hlength : first.passes.length = first.bytes.length := by
        have htotal := congrArg List.length hall
        rw [List.length_append, List.length_append] at htotal
        have hfirst := length_passes_le first
        have hrest := length_flatMap_passes_le rest
        omega
      obtain ⟨hfirst, hrest⟩ := List.append_inj hall hlength
      exact List.forall_mem_cons.mpr ⟨hfirst, ih hrest⟩

theorem idle_default (connected : Bool) (fd : Nat) (ip : String) (port : Nat)
    (interest : List EpollEvent) :
    Idle (fresh connected fd ip port interest) :=
  ⟨Buffer.wellFormed_default, Buffer.contents_default⟩

theorem valid_fresh (connected : Bool) (fd : Nat) (ip : String) (port : Nat)
    (interest : List EpollEvent) :
    (fresh connected fd ip port interest).valid = true := by
  simp [valid, fresh]

/-- Responses (none is empty: each starts with an id) that arrive in any way over an open
connection, until a call closes it: every call returns, and the strings passed to
`finishInvoke` are the responses, each once, whole and in order, exactly when the offsets
where a call ends are the offsets where a response ends and no call closes the connection
behind bytes it has read. -/
theorem responses_whole_iff_cuts (connected : Bool) (fd : Nat) (ip : String)
    (port : Nat) (interest : List EpollEvent) (responses : List (List UInt8))
    (inputs : List InputCall) (hresponses : ∀ response ∈ responses, response ≠ [])
    (hbefore : inputs.Pairwise InputCall.Before)
    (hstream : inputs.flatMap InputCall.bytes = responses.flatten) :
    ∃ last passed,
      trace inputStep (fresh connected fd ip port interest) inputs = .ok (last, passed) ∧
      (passed.flatten = responses ↔
        (∀ n, IsCut (inputs.map InputCall.bytes) n ↔ IsCut responses n) ∧
        ∀ input ∈ inputs, input.ending ≠ .dry → input.bytes = []) := by
  obtain ⟨last, passed, htrace, hpassed⟩ :=
    trace_inputStep inputs (idle_default connected fd ip port interest)
      (fun input _ => Or.inl (valid_fresh connected fd ip port interest)) hbefore
  refine ⟨last, passed, htrace, ?_⟩
  rw [hpassed]
  simp only [← passes_eq_bytes_iff]
  constructor
  · intro hsame
    have hkept : ∀ input ∈ inputs, input.passes = input.bytes := by
      apply passes_eq_bytes_of_flatMap
      rw [hstream, ← hsame, flatten_filter_nonempty]
      rfl
    refine ⟨fun n => ?_, hkept⟩
    rw [← isCut_filter_nonempty, ← List.map_congr_left hkept, hsame]
  · rintro ⟨hcuts, hkept⟩
    rw [List.map_congr_left hkept]
    apply eq_of_cuts
    · intro piece hpiece hnil
      simp [hnil] at hpiece
    · exact hresponses
    · rw [flatten_filter_nonempty, ← hstream]
      rfl
    · intro n
      rw [isCut_filter_nonempty]
      exact hcuts n

/-- One call that reads `1:a` and `2:b` in two `readv` calls. -/
def twoResponses : InputCall :=
  { call := { chunks := [[49, 58, 97], [50, 58, 98]]
              nonempty := by decide
              small := by decide
              bounded := by decide }
    ending := .dry }

/-- One call that reads `1:a` and then the end of the stream. -/
def responseAndEnd : InputCall :=
  { call := { chunks := [[49, 58, 97]]
              nonempty := by decide
              small := by decide
              bounded := by decide }
    ending := .endOfFile }

/-- Two responses before the socket runs dry are passed on as one string, and a response
that the server closes the connection behind is not passed on. -/
theorem twoResponses_joined :
    ([twoResponses].flatMap InputCall.bytes = [[49, 58, 97], [50, 58, 98]].flatten ∧
      ∃ last passed,
        trace inputStep (fresh true 7 "127.0.0.1" 80 [.epollin]) [twoResponses] =
          .ok (last, passed) ∧
        passed.flatten = [[49, 58, 97, 50, 58, 98]] ∧
        passed.flatten ≠ [[49, 58, 97], [50, 58, 98]]) ∧
    ([responseAndEnd].flatMap InputCall.bytes = [[49, 58, 97]].flatten ∧
      ∃ last passed,
        trace inputStep (fresh true 7 "127.0.0.1" 80 [.epollin]) [responseAndEnd] =
          .ok (last, passed) ∧
        passed.flatten = [] ∧ passed.flatten ≠ [[49, 58, 97]]) := by
  have hidle := idle_default true 7 "127.0.0.1" 80 [.epollin]
  have hopen := valid_fresh true 7 "127.0.0.1" 80 [.epollin]
  constructor
  · obtain ⟨last, hstep, _⟩ := inputStep_spec hidle twoResponses (Or.inl hopen)
    exact ⟨rfl, last, _, trace_cons_of_ok hstep rfl, rfl, by decide⟩
  · obtain ⟨last, hstep, _⟩ := inputStep_spec hidle responseAndEnd (Or.inl hopen)
    exact ⟨rfl, last, _, trace_cons_of_ok hstep rfl, rfl, by decide⟩

/-- Responses that the calls read one by one are passed on whole, and the end of the
stream behind them does no harm. -/
theorem responses_whole_one_by_one :
    ∃ last passed,
      trace inputStep (fresh true 7 "127.0.0.1" 80 [.epollin])
        [⟨⟨[[49, 58], [97]], by decide, by decide, by decide⟩, .dry⟩,
          ⟨⟨[[50, 58, 98]], by decide, by decide, by decide⟩, .dry⟩,
          ⟨⟨[], by decide, by decide, by decide⟩, .endOfFile⟩] = .ok (last, passed) ∧
      passed.flatten = [[49, 58, 97], [50, 58, 98]] := by
  obtain ⟨last, passed, htrace, hiff⟩ :=
    responses_whole_iff_cuts true 7 "127.0.0.1" 80 [.epollin]
      [[49, 58, 97], [50, 58, 98]]
      [⟨⟨[[49, 58], [97]], by decide, by decide, by decide⟩, .dry⟩,
        ⟨⟨[[50, 58, 98]], by decide, by decide, by decide⟩, .dry⟩,
        ⟨⟨[], by decide, by decide, by decide⟩, .endOfFile⟩]
      (by decide) (by simp [InputCall.Before]) rfl
  refine ⟨last, passed, htrace, hiff.mpr ⟨fun n => ?_, by decide⟩⟩
  rw [← isCut_filter_nonempty]
  exact Iff.rfl

end Transceiver

end Tarsx
