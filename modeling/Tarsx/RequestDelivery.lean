/-
Every request is handled at most once and every response goes back to the connection that
sent the request: each step of a server keeps the invariant of its history.
-/
import Mathlib.Data.List.Perm.Basic
import Tarsx.RequestOrigins

namespace Tarsx

open Foundation

namespace Server.Traced

variable {t t' : Traced} {next : Server} {maxIOVcount : Nat}

/-! ### Steps that move no frame -/

/-- A step after which every frame is where it was. -/
theorem Kept.of_unmoved (h : t.Kept) (hgrows : Grows t t')
    (hunreused : Unreused t'.server.net) (hcopied : t'.Copied)
    (hqueued : t'.queued = t.queued) (hcoroutines : t'.coroutines = t.coroutines)
    (hanswers : ∀ answer ∈ t'.answers, answer.1.cmd = .send → answer ∈ t.answers)
    (hhandled : t'.handled = t.handled) (hwritten : t'.written = t.written)
    (hwrites : t'.server.net.written = t.server.net.written) : t'.Kept where
  unreused := hunreused
  copied := hcopied
  attributed := by
    refine Attributed.of_grows hgrows ?_ ?_ ?_ ?_ ?_
    · intro adapter entry hentry
      rw [hqueued] at hentry
      exact (h.attributed.queued adapter entry hentry).mono hgrows
    · rw [hcoroutines]
      exact h.attributed.coroutines
    · exact fun answer hanswer hsend =>
        h.attributed.answers answer (hanswers answer hanswer hsend) hsend
    · rw [hhandled]
      exact h.attributed.handled
    · rw [hwritten, hwrites]
      exact h.attributed.written
  distinct := by
    refine h.distinct.of_eq ?_ ?_
    · funext adapter
      rw [waiting, waiting, hqueued]
    · rw [begun, begun, hcoroutines, hhandled]

theorem Kept.accept (h : t.Kept) {listenfd : Nat} {result : AcceptResult}
    (hstep : t.server.step maxIOVcount (.accept listenfd result) = .ok next) :
    (t.record next (.accept listenfd result)).Kept := by
  obtain ⟨net, hnet, hstep⟩ := ok_of_bind_ok hstep
  rw [Except.ok.injEq] at hstep
  subst hstep
  obtain ⟨hunreused, hsettled⟩ := h.unreused.accept hnet
  obtain ⟨⟨net', more⟩, haccept, hsame⟩ := ok_of_bind_ok hnet
  obtain ⟨hcommands, hqueues, _⟩ := NetThread.accept_keeps haccept
  rw [Except.ok.injEq] at hsame
  subst hsame
  have hwrites : net'.written = t.server.net.written := by
    rcases NetThread.netStep_accept hnet with ⟨_, rfl⟩ | hadded
    · rfl
    · obtain ⟨_, _, _, _, _, _, _, _, _, _, _, _, _, hwritten, _⟩ := hadded
      exact hwritten
  refine h.of_unmoved (.of_same rfl hsettled) hunreused
    ⟨fun adapter => ?_, h.copied.coroutines, ?_, h.copied.handled⟩ rfl rfl
    (fun _ hanswer _ => hanswer) rfl rfl hwrites
  · exact (h.copied.queued adapter).trans (congrFun hqueues adapter).symm
  · exact h.copied.answers.trans hcommands.symm

/-- The commands queued by a step, with what is recorded beside them. -/
theorem answered_eq (h : t.Copied) {msgs : List TagSendData}
    (hcommands : next.net.sendBuffer = t.server.net.sendBuffer ++ msgs) (frame : Option Nat) :
    t.answered next frame = t.answers ++ msgs.map fun msg => (msg, frame) := by
  have hlength : t.answers.length = t.server.net.sendBuffer.length := by
    rw [← h.answers, List.length_map]
  rw [answered, hcommands, hlength, List.drop_left]

theorem copied_answered (h : t.Copied) {msgs : List TagSendData}
    (hcommands : next.net.sendBuffer = t.server.net.sendBuffer ++ msgs) (frame : Option Nat) :
    (t.answered next frame).map Prod.fst = next.net.sendBuffer := by
  have hsame : msgs.map (Prod.fst ∘ fun msg => (msg, frame)) = msgs :=
    List.map_id'' (fun _ => rfl) msgs
  rw [answered_eq h hcommands, List.map_append, h.answers, List.map_map, hsame, hcommands]

/-- A close command answers no frame. -/
theorem Kept.close (h : t.Kept) {uid : Nat}
    (hstep : t.server.step maxIOVcount (.close uid) = .ok next) :
    (t.record next (.close uid)).Kept := by
  rw [Server.step, Except.ok.injEq] at hstep
  subst hstep
  have hcommands : (t.server.net.closeUid uid).sendBuffer =
      t.server.net.sendBuffer ++ [{ cmd := .close, uid := uid }] := rfl
  refine h.of_unmoved (.of_same rfl (.of_eq rfl rfl)) (h.unreused.of_eq rfl rfl rfl)
    ⟨h.copied.queued, h.copied.coroutines, copied_answered h.copied hcommands none,
      h.copied.handled⟩
    rfl rfl ?_ rfl rfl rfl
  intro answer hanswer hsend
  change answer ∈ t.answered _ none at hanswer
  rw [answered_eq h.copied hcommands, List.map_singleton, List.mem_append,
    List.mem_singleton] at hanswer
  rcases hanswer with hold | rfl
  · exact hold
  · contradiction

/-! ### Events and commands -/

/-- Every frame that is anywhere has the number of a received frame. -/
theorem Kept.waiting_lt (h : t.Kept) {adapter f : Nat} (hwaiting : f ∈ t.waiting adapter) :
    f < t.received.length := by
  obtain ⟨entry, hentry, hframe⟩ := List.mem_filterMap.mp hwaiting
  rcases h.attributed.queued adapter entry hentry with ⟨_, hnone⟩ | ⟨_, hfrom, _⟩
  · rw [hnone] at hframe
    contradiction
  · obtain ⟨f', hf', hlt⟩ := hfrom.lt
    rw [hf', Option.some.injEq] at hframe
    exact hframe ▸ hlt

theorem Kept.begun_lt (h : t.Kept) {f : Nat} (hbegun : some f ∈ t.begun) :
    f < t.received.length := by
  have hnumber : ∃ f', some f = some f' ∧ f' < t.received.length := by
    rcases List.mem_append.mp hbegun with hmem | hmem
    · obtain ⟨entry, hentry, hframe⟩ := List.mem_map.mp hmem
      exact hframe ▸ (h.attributed.coroutines entry hentry).lt
    · obtain ⟨entry, hentry, hframe⟩ := List.mem_map.mp hmem
      obtain ⟨connection, hsent⟩ := h.attributed.handled entry hentry
      exact hframe ▸ hsent.lt
  obtain ⟨f', hf', hlt⟩ := hnumber
  rw [Option.some.injEq] at hf'
  exact hf' ▸ hlt

section Behind

variable {reqs : Nat → List TagRecvData}

/-- What is put behind a queue waits there, if its requests are recorded. -/
theorem Kept.waits_extended (h : t.Kept) (hgrows : Grows t t')
    (hbehind : NetThread.Behind t.server.net next.net reqs)
    (hnew : ∀ adapter i recv, (reqs adapter)[i]? = some recv →
      t'.From (some (t.received.length + i)) recv.uid ∧
        t'.Queued (some (t.received.length + i)) adapter) (adapter : Nat) :
    ∀ entry ∈ t.extended next adapter, t'.Waits adapter entry := by
  intro entry hentry
  obtain ⟨news, _, hreqs, hextended⟩ := extended_eq h.copied hbehind adapter
  rw [hextended] at hentry
  rcases List.mem_append.mp hentry with hold | hfresh
  · exact (h.attributed.queued adapter entry hold).mono hgrows
  · rcases mem_numbered hfresh with hnews | ⟨hopen, i, hframe, hrecv⟩
    · exact Or.inl hnews
    · rw [hreqs] at hrecv
      obtain ⟨hfrom, hqueued⟩ := hnew adapter i entry.1 hrecv
      exact Or.inr ⟨hopen, hframe ▸ hfrom, hframe ▸ hqueued⟩

/-- The new frames have numbers of their own. -/
theorem Kept.distinct_extended (h : t.Kept)
    (hbehind : NetThread.Behind t.server.net next.net reqs)
    (hqueued : t'.queued = t.extended next) (hbegun : t'.begun = t.begun) : t'.Distinct := by
  have hwaiting : ∀ adapter, t'.waiting adapter = t.waiting adapter ++
      List.range' t.received.length (reqs adapter).length := by
    intro adapter
    rw [← waiting_extended h.copied hbehind adapter, waiting, hqueued]
  refine ⟨fun adapter => ?_, hbegun ▸ h.distinct.begun, fun adapter f hf hold => ?_⟩
  · rw [hwaiting]
    refine List.Nodup.append (h.distinct.waiting adapter) List.nodup_range' ?_
    intro f hold hnew
    exact absurd (h.waiting_lt hold) (Nat.not_lt.mpr (List.mem_range'_1.mp hnew).1)
  · rw [hwaiting] at hf
    rw [hbegun] at hold
    rcases List.mem_append.mp hf with hbefore | hnew
    · exact h.distinct.apart adapter f hbefore hold
    · exact absurd (h.begun_lt hold) (Nat.not_lt.mpr (List.mem_range'_1.mp hnew).1)

end Behind

/-- The requests that an event brings, and for which adapter. -/
theorem requests_of_event {n net : NetThread} {ev : NetEvent}
    (hnet : n.processNet maxIOVcount ev = .ok net) :
    ∃ reqs : Nat → List TagRecvData, NetThread.Told n net reqs ∧
      ∀ (adapter i : Nat) (recv : TagRecvData), (reqs adapter)[i]? = some recv → ∃ c,
        n.connectionUids ev.uid = some (some c) ∧ adapter = c.bindAdapter ∧
          (n.arriving ev)[i]? = some recv ∧ recv.uid = c.uid ∧
          recv.adapter = some c.bindAdapter := by
  rcases NetThread.processNet_queues hnet with ⟨_, htold⟩ | ⟨c, hc, htold, hrequests⟩
  · exact ⟨_, htold, fun adapter i recv hrecv => by simp [NetThread.noRequests] at hrecv⟩
  · refine ⟨_, htold, fun adapter i recv hrecv => ?_⟩
    split at hrecv
    · rename_i hadapter
      obtain ⟨huid, _, hown⟩ := hrequests recv (List.mem_of_getElem? hrecv)
      exact ⟨c, hc, hadapter, hrecv, huid, hown⟩
    · simp at hrecv

theorem Kept.net (h : t.Kept) {ev : NetEvent}
    (hstep : t.server.step maxIOVcount (.net ev) = .ok next) :
    (t.record next (.net ev)).Kept := by
  obtain ⟨net, hnet, hstep⟩ := ok_of_bind_ok hstep
  rw [Except.ok.injEq] at hstep
  subst hstep
  have huids : t.server.net.OwnUids := fun uid c hc => (h.unreused.sound uid c hc).uid_eq
  have hsame := NetThread.sameSockets_processNet huids hnet
  have hsilent := NetThread.silent_processNet hnet
  obtain ⟨hunreused, hsettled⟩ := @Unreused.netStep _ _ h.unreused maxIOVcount (.net ev)
    (fun _ _ heq => by contradiction) hsame hsilent.accepted hnet
  obtain ⟨reqs, htold, hreqs⟩ := requests_of_event hnet
  have hgrows : Grows t (t.record { t.server with net := net } (.net ev)) :=
    ⟨⟨_, rfl⟩, hsettled⟩
  refine ⟨hunreused, ⟨copied_extended h.copied htold.queues, h.copied.coroutines,
      h.copied.answers.trans htold.commands.symm, h.copied.handled⟩,
    Attributed.of_grows hgrows (h.waits_extended hgrows htold.queues ?_) h.attributed.coroutines
      h.attributed.answers h.attributed.handled ?_,
    h.distinct_extended htold.queues rfl rfl⟩
  · intro adapter i recv hrecv
    obtain ⟨c, hc, rfl, harriving, huid, hadapter⟩ := hreqs adapter i recv hrecv
    have huid' : recv.uid = ev.uid := huid.trans (huids ev.uid c hc)
    have hused : ev.uid ∉ t.server.net.free :=
      h.unreused.used ev.uid (NetThread.live_iff.mpr ⟨c, hc⟩)
    have hread : t.readFrom ev.uid = c.serial := by
      rw [readFrom, NetThread.connectionOf, hc]
      rfl
    have harrival : (t.record { t.server with net := net } (.net ev)).received[
        t.received.length + i]? = some { connection := c.serial, adapter := c.bindAdapter } := by
      simp only [record]
      rw [List.getElem?_append_right (Nat.le_add_right _ _), Nat.add_sub_cancel_left,
        List.getElem?_map, harriving, Option.map_some, hadapter, Option.getD_some, hread]
    refine ⟨⟨⟨c.serial, ⟨_, _, rfl, harrival, rfl⟩, fun c' hc' => ?_⟩, ?_⟩,
      ⟨_, _, rfl, harrival, rfl⟩⟩
    · rw [huid'] at hc'
      obtain ⟨old, hold, hserial⟩ := hsettled.stored ev.uid hused c' hc'
      rw [hc, Option.some.injEq, Option.some.injEq] at hold
      exact hold ▸ hserial
    · rw [huid']
      exact hsettled.free ev.uid hused
  · exact hsilent.written.symm ▸ h.attributed.written

/-- The responses among the commands taken are written to the connections that sent the
frames they answer. -/
theorem Kept.returned (h : t.Kept) {writes : List Written}
    (hwrites : List.Forall₂ t.server.net.Writes
      (t.server.net.sendBuffer.filter fun msg => msg.cmd = .send) writes) :
    List.Forall₂ t.Returned t.responses writes := by
  have hcopied : (t.server.net.sendBuffer.filter fun msg => decide (msg.cmd = .send)) =
      t.responses.map Prod.fst := by
    rw [← h.copied.answers, List.filter_map]
    rfl
  rw [hcopied, List.forall₂_map_left_iff] at hwrites
  have hboth := (List.forall₂_and_left _ _).mpr
    ⟨fun answer hanswer => @Attributed.responses t h.attributed answer hanswer, hwrites⟩
  refine hboth.imp fun answer write => ?_
  rintro ⟨hsent, hmsg, c, hc, hconnection⟩
  exact ⟨hmsg, hconnection ▸ hsent hc⟩

/-- The commands are taken off the queue before the first of them runs. -/
theorem Kept.pipe (h : t.Kept) {results : List WriteResult}
    (hstep : t.server.step maxIOVcount (.pipe results) = .ok next) :
    (t.record next (.pipe results)).Kept := by
  obtain ⟨net, hnet, hstep⟩ := ok_of_bind_ok hstep
  rw [Except.ok.injEq] at hstep
  subst hstep
  obtain ⟨haccepted, writes, hwritten, hwrites⟩ := NetThread.commandLoop_writes _ hnet
  obtain ⟨hunreused, hsettled⟩ := @Unreused.netStep _ _ h.unreused maxIOVcount (.pipe results)
    (fun _ _ heq => by contradiction) (NetThread.sameSockets_processPipe hnet) haccepted hnet
  have htold := NetThread.told_commandLoop _ hnet
  have hbehind : NetThread.Behind t.server.net net NetThread.noRequests := htold.queues
  have hgrows : Grows t (t.record { t.server with net := net } (.pipe results)) :=
    .of_same rfl hsettled
  refine ⟨hunreused, ⟨copied_extended h.copied hbehind, h.copied.coroutines,
      htold.commands.symm, h.copied.handled⟩,
    Attributed.of_grows hgrows (h.waits_extended hgrows hbehind ?_) h.attributed.coroutines
      (by simp [record]) h.attributed.handled ?_,
    h.distinct_extended hbehind rfl rfl⟩
  · intro adapter i recv hrecv
    simp [NetThread.noRequests] at hrecv
  · have hnew := h.returned hwrites
    have hboth := List.rel_append h.attributed.written hnew
    exact hwritten.symm ▸ hboth

/-! ### Handlers -/

theorem handleRequest_of_nil {s : Server} {adapter : Nat} {created : Bool}
    (hqueue : s.net.receiveBuffers adapter = []) : s.handleRequest adapter created = s := by
  simp only [handleRequest, NetThread.waitForRecvQueue, hqueue]

/-- A message is taken off the queue, and a request may get a coroutine. -/
theorem handleRequest_of_cons {s : Server} {adapter : Nat} {created : Bool}
    {recv : TagRecvData} {rest : List TagRecvData}
    (hqueue : s.net.receiveBuffers adapter = recv :: rest) :
    s.handleRequest adapter created =
      { s with
        net := { s.net with
          receiveBuffers := Function.update s.net.receiveBuffers adapter rest }
        coroutines := s.coroutines ++ if recv.closed = false ∧ created then
          [{ recv with adapter := some adapter }] else [] } := by
  simp only [handleRequest, NetThread.waitForRecvQueue, hqueue]
  cases hclosed : recv.closed with
  | true => simp
  | false => cases created <;> simp

section Take

variable {adapter : Nat} {recv : TagRecvData} {frame : Option Nat}
  {rest : List (TagRecvData × Option Nat)}

/-- The front of a queue taken off. -/
def popped (t : Traced) (adapter : Nat) (rest : List (TagRecvData × Option Nat)) (other : Nat) :
    List Nat :=
  (Function.update t.queued adapter rest other).filterMap Prod.snd

theorem popped_sublist (hqueue : t.queued adapter = (recv, frame) :: rest) (other : Nat) :
    (t.popped adapter rest other).Sublist (t.waiting other) := by
  rw [popped, waiting]
  by_cases hself : other = adapter
  · subst hself
    rw [Function.update_self, hqueue]
    exact (List.sublist_cons_self _ _).filterMap _
  · rw [Function.update_of_ne hself]

/-- A frame that was taken off waits nowhere. -/
theorem Kept.not_mem_popped (h : t.Kept) (hqueue : t.queued adapter = (recv, frame) :: rest)
    {f : Nat} (hframe : frame = some f) (other : Nat) : f ∉ t.popped adapter rest other := by
  intro hmem
  by_cases hself : other = adapter
  · subst hself
    have hnodup := h.distinct.waiting other
    rw [waiting, hqueue, List.filterMap_cons_some hframe] at hnodup
    rw [popped, Function.update_self] at hmem
    exact (List.nodup_cons.mp hnodup).1 hmem
  · rw [popped, Function.update_of_ne hself] at hmem
    obtain ⟨entry, hentry, hsame⟩ := List.mem_filterMap.mp hmem
    have hhere := h.attributed.queued adapter (recv, frame)
      (by rw [hqueue]; exact List.mem_cons_self)
    rcases h.attributed.queued other entry hentry with ⟨_, hnone⟩ | ⟨_, _, hthere⟩
    · rw [hnone] at hsame
      contradiction
    · rcases hhere with ⟨_, hnone⟩ | ⟨_, _, hhere⟩
      · rw [hframe] at hnone
        contradiction
      · rw [hframe] at hhere
        rw [hsame] at hthere
        exact hself (hhere.unique hthere)

/-- The request that is taken off is of a frame that was not begun. -/
theorem Kept.front_frame (h : t.Kept) (hqueue : t.queued adapter = (recv, frame) :: rest)
    (hopen : recv.closed = false) :
    t.From frame recv.uid ∧ ∃ f, frame = some f ∧ some f ∉ t.begun := by
  have hmem : (recv, frame) ∈ t.queued adapter := by
    rw [hqueue]
    exact List.mem_cons_self
  rcases h.attributed.queued adapter (recv, frame) hmem with ⟨hclosed, _⟩ | ⟨_, hfrom, _⟩
  · rw [hopen] at hclosed
    contradiction
  · obtain ⟨f, hframe, _⟩ := hfrom.lt
    refine ⟨hfrom, f, hframe, h.distinct.apart adapter f ?_⟩
    exact List.mem_filterMap.mpr ⟨(recv, frame), hmem, hframe⟩

theorem Kept.waits_popped (h : t.Kept) (hqueue : t.queued adapter = (recv, frame) :: rest)
    (other : Nat) : ∀ entry ∈ Function.update t.queued adapter rest other,
      t.Waits other entry := by
  intro entry hentry
  by_cases hself : other = adapter
  · subst hself
    rw [Function.update_self] at hentry
    exact h.attributed.queued other entry (by rw [hqueue]; exact List.mem_cons_of_mem _ hentry)
  · rw [Function.update_of_ne hself] at hentry
    exact h.attributed.queued other entry hentry

theorem copied_popped (h : t.Copied) (other : Nat) :
    (Function.update t.queued adapter rest other).map Prod.fst =
      Function.update t.server.net.receiveBuffers adapter (rest.map Prod.fst) other := by
  by_cases hself : other = adapter
  · subst hself
    rw [Function.update_self, Function.update_self]
  · rw [Function.update_of_ne hself, Function.update_of_ne hself, h.queued]

end Take

theorem Kept.take (h : t.Kept) {adapter : Nat} {created : Bool}
    (hstep : t.server.step maxIOVcount (.take adapter created) = .ok next) :
    (t.record next (.take adapter created)).Kept := by
  rw [Server.step, Except.ok.injEq] at hstep
  subst hstep
  have hcopy := h.copied.queued adapter
  cases hqueue : t.queued adapter with
  | nil =>
      rw [hqueue, List.map_nil] at hcopy
      have hrecord : t.record (t.server.handleRequest adapter created)
          (.take adapter created) = t := by
        rw [handleRequest_of_nil hcopy.symm]
        simp only [record, hqueue]
      exact hrecord.symm ▸ h
  | cons entry rest =>
      obtain ⟨recv, frame⟩ := entry
      rw [hqueue, List.map_cons] at hcopy
      rw [handleRequest_of_cons hcopy.symm]
      have hqueues := fun other => @copied_popped t adapter rest h.copied other
      have hwaits := h.waits_popped hqueue
      have hsublist := popped_sublist hqueue
      by_cases hgo : recv.closed = false ∧ created = true
      · simp only [record, hqueue, if_pos hgo]
        obtain ⟨hfrom, f, rfl, hnew⟩ := h.front_frame hqueue hgo.1
        refine ⟨h.unreused.of_eq rfl rfl rfl,
          ⟨hqueues, ?_, h.copied.answers, h.copied.handled⟩,
          @Attributed.of_grows t _ (.of_same rfl (.of_eq rfl rfl))
            (fun other entry hentry => (hwaits other entry hentry).mono
              (.of_same rfl (.of_eq rfl rfl)))
            ?_ h.attributed.answers h.attributed.handled h.attributed.written, ?_⟩
        · rw [List.map_append, h.copied.coroutines]
          rfl
        · intro entry hentry
          rcases List.mem_append.mp hentry with hold | hlast
          · exact h.attributed.coroutines entry hold
          · rw [List.mem_singleton.mp hlast]
            exact hfrom
        · have hbegun : ((t.coroutines ++ [({ recv with adapter := some adapter }, some f)]).map
              Prod.snd ++ t.handled.map Prod.snd).Perm (some f :: t.begun) := by
            rw [List.map_append, List.append_assoc]
            exact List.perm_middle
          refine ⟨fun other => (h.distinct.waiting other).sublist (hsublist other),
            hbegun.nodup_iff.mpr (List.nodup_cons.mpr ⟨hnew, h.distinct.begun⟩), ?_⟩
          intro other g hg hmem
          rcases List.mem_cons.mp (hbegun.mem_iff.mp hmem) with heq | hold
          · rw [Option.some.injEq] at heq
            exact h.not_mem_popped hqueue rfl other (heq ▸ hg)
          · exact h.distinct.apart other g ((hsublist other).subset hg) hold
      · simp only [record, hqueue, if_neg hgo, List.append_nil]
        refine ⟨h.unreused.of_eq rfl rfl rfl,
          ⟨hqueues, h.copied.coroutines, h.copied.answers, h.copied.handled⟩,
          @Attributed.of_grows t _ (.of_same rfl (.of_eq rfl rfl))
            (fun other entry hentry => (hwaits other entry hentry).mono
              (.of_same rfl (.of_eq rfl rfl)))
            h.attributed.coroutines h.attributed.answers h.attributed.handled
            h.attributed.written,
          h.distinct.of_sublist hsublist (List.Perm.refl _)⟩

/-- A coroutine that runs leaves the list and calls `handle` once, and what it sends carries
the uid of its request. -/
structure Ran (s next : Server) (i : Nat) (recv : TagRecvData) (msgs : List TagSendData) :
    Prop where
  coroutines : next.coroutines = s.coroutines.eraseIdx i
  handled : next.handled = s.handled ++ [recv]
  table : next.net.connectionUids = s.net.connectionUids
  free : next.net.free = s.net.free
  accepted : next.net.accepted = s.net.accepted
  written : next.net.written = s.net.written
  queues : next.net.receiveBuffers = s.net.receiveBuffers
  commands : next.net.sendBuffer = s.net.sendBuffer ++ msgs
  uids : ∀ msg ∈ msgs, msg.uid = recv.uid

theorem runCoroutine_of_some {s : Server} {i : Nat} {recv : TagRecvData}
    (hi : s.coroutines[i]? = some recv) (buffer : Option (List UInt8)) :
    ∃ msgs, Ran s (s.runCoroutine i buffer) i recv msgs := by
  simp only [runCoroutine, hi]
  cases buffer with
  | none => exact ⟨[], rfl, rfl, rfl, rfl, rfl, rfl, rfl, (List.append_nil _).symm, by simp⟩
  | some response =>
      rw [handle, sendToEpollServer, NetThread.recvNeedToSendFromServer]
      split
      · exact ⟨[], rfl, rfl, rfl, rfl, rfl, rfl, rfl, (List.append_nil _).symm, by simp⟩
      · exact ⟨_, rfl, rfl, rfl, rfl, rfl, rfl, rfl, rfl, by simp⟩

theorem Kept.handle (h : t.Kept) {i : Nat} {buffer : Option (List UInt8)}
    (hstep : t.server.step maxIOVcount (.handle i buffer) = .ok next) :
    (t.record next (.handle i buffer)).Kept := by
  rw [Server.step, Except.ok.injEq] at hstep
  subst hstep
  have hcopy : (t.coroutines[i]?).map Prod.fst = t.server.coroutines[i]? := by
    rw [← List.getElem?_map, h.copied.coroutines]
  cases hi : t.coroutines[i]? with
  | none =>
      rw [hi, Option.map_none] at hcopy
      have hrecord : t.record (t.server.runCoroutine i buffer) (.handle i buffer) = t := by
        simp only [record, hi, runCoroutine, ← hcopy]
      exact hrecord.symm ▸ h
  | some entry =>
      obtain ⟨recv, frame⟩ := entry
      rw [hi, Option.map_some] at hcopy
      obtain ⟨msgs, hran⟩ := runCoroutine_of_some hcopy.symm buffer
      have hentry : (recv, frame) ∈ t.coroutines := List.mem_of_getElem? hi
      have hfrom := h.attributed.coroutines _ hentry
      have hperm : ((t.coroutines.eraseIdx i).map Prod.snd ++
          (t.handled ++ [(recv, frame)]).map Prod.snd).Perm t.begun := by
        obtain ⟨hlt, hget⟩ := List.getElem?_eq_some_iff.mp hi
        have herase := (List.getElem_cons_eraseIdx_perm hlt).map Prod.snd
        rw [hget, List.map_cons] at herase
        rw [begun, List.map_append, ← List.append_assoc]
        refine (List.perm_append_singleton _ _).trans ?_
        rw [← List.cons_append]
        exact herase.append_right _
      have hsettled := Settled.of_eq hran.table hran.free
      simp only [record, hi]
      refine ⟨h.unreused.of_eq hran.table hran.free hran.accepted,
        ⟨?_, ?_, copied_answered h.copied hran.commands frame, ?_⟩,
        @Attributed.of_grows t _ (.of_same rfl hsettled)
          (fun other entry hentry => (h.attributed.queued other entry hentry).mono
            (.of_same rfl hsettled)) ?_ ?_ ?_ ?_, ?_⟩
      · intro adapter
        rw [h.copied.queued, hran.queues]
      · rw [hran.coroutines, ← h.copied.coroutines, List.eraseIdx_map]
      · rw [hran.handled, List.map_append, h.copied.handled]
        rfl
      · exact fun entry hmem => h.attributed.coroutines entry (List.mem_of_mem_eraseIdx hmem)
      · intro answer hanswer hsend
        rw [answered_eq h.copied hran.commands] at hanswer
        rcases List.mem_append.mp hanswer with hold | hnew
        · exact h.attributed.answers answer hold hsend
        · obtain ⟨msg, hmsg, rfl⟩ := List.mem_map.mp hnew
          rw [hran.uids msg hmsg]
          exact hfrom
      · intro other hother
        rcases List.mem_append.mp hother with hold | hlast
        · exact h.attributed.handled other hold
        · rw [List.mem_singleton.mp hlast]
          exact hfrom.sent.imp fun _ hsent => hsent.1
      · rw [hran.written]
        exact h.attributed.written
      · exact h.distinct.of_sublist (fun _ => List.Sublist.refl _) hperm

/-! ### Runs -/

theorem Kept.step_ok (h : t.Kept) {action : Action} (hstep : step maxIOVcount t action = .ok t') :
    t'.Kept := by
  obtain ⟨next, hnext, hrecord⟩ := ok_of_bind_ok hstep
  rw [Except.ok.injEq] at hrecord
  subst hrecord
  cases action with
  | accept listenfd result => exact h.accept hnext
  | net ev => exact h.net hnext
  | pipe results => exact h.pipe hnext
  | close uid => exact h.close hnext
  | take adapter created => exact h.take hnext
  | handle i buffer => exact h.handle hnext

theorem Kept.delivered (h : t.Kept) : t.Delivered where
  copied := h.copied
  numbered := h.unreused.numbered
  once := h.distinct.begun.sublist (List.sublist_append_right _ _)
  received := h.attributed.handled
  written := h.attributed.written
  queued := fun _ hanswer _ hc => h.attributed.responses hanswer hc

/-- A server whose net thread was just created. -/
def started (freeSize : Nat) (listeners : Nat → Nat) : Traced :=
  { server := { net := NetThread.created freeSize listeners } }

theorem kept_started (freeSize : Nat) (listeners : Nat → Nat) :
    (started freeSize listeners).Kept := by
  have hempty : ∀ uid c, (started freeSize listeners).server.net.connectionUids uid ≠
      some (some c) := fun _ _ hc => nomatch hc
  refine ⟨⟨fun uid c hc => absurd hc (hempty uid c), List.nodup_range', fun uid hlive => ?_,
      fun uid c hc => absurd hc (hempty uid c),
      fun uid _ c _ hc _ => absurd hc (hempty uid c)⟩,
    ⟨fun _ => rfl, rfl, rfl, rfl⟩,
    ⟨by simp [started], by simp [started], by simp [started], by simp [started], .nil⟩,
    ⟨fun _ => List.nodup_nil, List.nodup_nil, fun adapter f hf => ?_⟩⟩
  · obtain ⟨c, hc⟩ := NetThread.live_iff.mp hlive
    exact absurd hc (hempty uid c)
  · simp [waiting, started] at hf

/-- Over any run of a server with one net thread: `handle` is called at most once for a
received request, and every response that is written, or is queued, goes to the connection
that sent the request it answers, whatever descriptors and connections come and go. -/
theorem responses_reach_their_connection (maxIOVcount freeSize : Nat) (listeners : Nat → Nat)
    (actions : List Action) :
    StaysUpTo (fun _ => True) (step maxIOVcount) Delivered (started freeSize listeners)
      actions :=
  staysUpTo_of_along (fun _ h => Kept.delivered h) (fun _ _ _ h _ hstep => h.step_ok hstep)
    (fun _ _ _ _ _ _ => trivial) (kept_started freeSize listeners) along_true

set_option maxRecDepth 20000 in
/-- The first frame of the first connection is answered to the first connection. -/
example : (run (step 1024) (started 0 fun _ => 0)
    [.accept 4 (.accepted 9 "127.0.0.1" 80 false),
      .net {
        uid := 1, epollin := true, reads := [.data [0, 0, 0, 1, 58, 97]]
        fits := by simp [Connection.readSize] },
      .take 0 true, .handle 0 (some [98]), .pipe [.accepted 1]]).map
        (fun t => (t.written.map Prod.snd, t.server.net.written.map Written.connection)) =
    .ok ([some 0], [0]) := rfl

set_option maxRecDepth 20000 in
/-- The connection is deleted and its descriptor given to another one: the response still
carries the uid of the first, which nothing is stored under. -/
example : ∃ t, run (step 1024) (started 0 fun _ => 0)
    [.accept 4 (.accepted 9 "127.0.0.1" 80 false),
      .net {
        uid := 1, epollin := true, reads := [.data [0, 0, 0, 1, 58, 97]]
        fits := by simp [Connection.readSize] },
      .take 0 true, .net { uid := 1, epollhup := true },
      .accept 4 (.accepted 9 "127.0.0.1" 81 false), .handle 0 (some [98])] = .ok t ∧
    t.responses.map Prod.snd = [some 0] ∧
    step 1024 t (.pipe [.accepted 1]) = .error .nullPointer := ⟨_, rfl, rfl, rfl⟩

end Server.Traced

end Tarsx
