/-
Circular doubly linked lists.  Nodes of any type carry a next and a previous
pointer; a ring is a head with the nodes that its next pointers run through before
they come back.  Inserting before the head and unlinking a node are pointer writes,
and this module says what they do to the ring of the head and to every other ring.
-/
import Mathlib.Data.List.Chain
import Mathlib.Logic.Function.Basic

namespace Foundation

universe u

/-- The two pointers of every node; `none` is a null pointer. -/
structure Links (P : Type u) where
  next : P → Option P
  prev : P → Option P

namespace Links

variable {P : Type u}

/-- Two nodes point to each other. -/
def Joined (l : Links P) (p q : P) : Prop :=
  l.next p = some q ∧ l.prev q = some p

/-- From the head through the items and back, each node and the one behind it point
to each other, and no node comes twice. -/
structure Ring (l : Links P) (head : P) (items : List P) : Prop where
  chain : (head :: (items ++ [head])).IsChain l.Joined
  nodup : (head :: items).Nodup

/-! ### Chains -/

section

variable {l l' : Links P}

/-- A chain reads the next pointers of all its nodes but the last and the previous
pointers of all but the first. -/
theorem chain_congr {nodes : List P} (hchain : nodes.IsChain l.Joined)
    (hnext : ∀ p ∈ nodes.dropLast, l'.next p = l.next p)
    (hprev : ∀ p ∈ nodes.tail, l'.prev p = l.prev p) : nodes.IsChain l'.Joined := by
  induction hchain with
  | nil => exact .nil
  | singleton p => exact .singleton p
  | cons_cons hjoined _ ih =>
      rcases hjoined with ⟨hp, hq⟩
      apply List.IsChain.cons_cons
      · constructor
        · rw [hnext _ (by simp), hp]
        · rw [hprev _ (by simp), hq]
      · apply ih
        · intro r hr
          apply hnext
          rw [List.dropLast_cons_cons]
          exact List.mem_cons_of_mem _ hr
        · intro r hr
          exact hprev r (List.mem_cons_of_mem _ hr)

/-- From one node, two chains that end in the same node and hold it nowhere else are
one. -/
theorem chain_unique {last : P} {items others : List P} :
    ∀ {p : P}, (p :: (items ++ [last])).IsChain l.Joined →
      (p :: (others ++ [last])).IsChain l.Joined → last ∉ items → last ∉ others →
      items = others := by
  induction items generalizing others with
  | nil =>
      intro p hchain hother _ hnot
      cases others with
      | nil => rfl
      | cons other rest =>
          have hfirst := (List.isChain_cons_cons.mp hchain).1.1
          have hsecond := (List.isChain_cons_cons.mp hother).1.1
          have hsame : last = other := Option.some.inj (hfirst.symm.trans hsecond)
          exact absurd (hsame ▸ List.mem_cons_self) hnot
  | cons item items ih =>
      intro p hchain hother hitems hnot
      have hfirst := (List.isChain_cons_cons.mp hchain)
      cases others with
      | nil =>
          have hsecond := (List.isChain_cons_cons.mp hother).1.1
          have hsame : item = last := Option.some.inj (hfirst.1.1.symm.trans hsecond)
          exact absurd (hsame ▸ List.mem_cons_self) hitems
      | cons other rest =>
          have hsecond := (List.isChain_cons_cons.mp hother)
          have hsame : item = other := Option.some.inj (hfirst.1.1.symm.trans hsecond.1.1)
          subst hsame
          rw [ih hfirst.2 hsecond.2 (fun hmem => hitems (List.mem_cons_of_mem _ hmem))
            fun hmem => hnot (List.mem_cons_of_mem _ hmem)]

/-- Two chains, one behind the other. -/
theorem chain_append {front back : List P} {p q : P} :
    ((front ++ [p]) ++ (q :: back)).IsChain l.Joined ↔
      (front ++ [p]).IsChain l.Joined ∧ l.Joined p q ∧ (q :: back).IsChain l.Joined := by
  rw [List.append_assoc, List.singleton_append]
  exact List.isChain_append_cons_cons

end

/-! ### Rings -/

section

variable {l l' : Links P} {head : P} {items : List P}

/-- A ring is where it was when the pointers of its nodes are. -/
theorem Ring.frame (h : l.Ring head items)
    (hnext : ∀ p ∈ head :: items, l'.next p = l.next p)
    (hprev : ∀ p ∈ head :: items, l'.prev p = l.prev p) : l'.Ring head items := by
  refine ⟨chain_congr h.chain ?_ ?_, h.nodup⟩
  · intro p hp
    apply hnext
    rw [← List.cons_append, List.dropLast_concat] at hp
    exact hp
  · intro p hp
    apply hprev
    rcases List.mem_append.mp hp with hitem | hhead
    · exact List.mem_cons_of_mem _ hitem
    · exact List.mem_singleton.mp hhead ▸ List.mem_cons_self

/-- A ring is where it was when the pointers that changed are of other nodes. -/
theorem Ring.frame_of_changed (h : l.Ring head items) (changed : List P)
    (hkept : ∀ p, p ∉ changed → l'.next p = l.next p ∧ l'.prev p = l.prev p)
    (hother : ∀ q ∈ changed, q ∉ head :: items) : l'.Ring head items := by
  have hfar : ∀ p ∈ head :: items, p ∉ changed := fun p hp hmem => hother p hmem hp
  apply h.frame
  · exact fun p hp => (hkept p (hfar p hp)).1
  · exact fun p hp => (hkept p (hfar p hp)).2

/-- The next pointer of the head leads to the first item, or back. -/
theorem Ring.next_head (h : l.Ring head items) :
    l.next head = some (items.headD head) := by
  have hchain := h.chain
  cases items with
  | nil => exact (List.isChain_cons_cons.mp hchain).1.1
  | cons item rest => exact (List.isChain_cons_cons.mp hchain).1.1

/-- The next pointer of a ring's head leads back exactly when the ring is empty. -/
theorem Ring.empty_iff (h : l.Ring head items) :
    l.next head = some head ↔ items = [] := by
  rw [h.next_head, Option.some.injEq]
  cases items with
  | nil => simp
  | cons item rest =>
      have hne : item ≠ head := fun hsame =>
        (List.nodup_cons.mp h.nodup).1 (hsame ▸ List.mem_cons_self)
      simp [hne]

/-- A head is in one ring. -/
theorem Ring.unique (h : l.Ring head items) {others : List P} (hother : l.Ring head others) :
    items = others :=
  chain_unique h.chain hother.chain (List.nodup_cons.mp h.nodup).1
    (List.nodup_cons.mp hother.nodup).1

/-- The nodes behind a node, read off the next pointers until the head comes back. -/
def itemsFrom [DecidableEq P] (l : Links P) (head : P) : Nat → P → List P
  | 0, _ => []
  | fuel + 1, p =>
      match l.next p with
      | none => []
      | some q => if q = head then [] else q :: itemsFrom l head fuel q

theorem itemsFrom_of_chain [DecidableEq P] {fuel : Nat} {p : P}
    (hchain : (p :: (items ++ [head])).IsChain l.Joined) (hhead : head ∉ items)
    (hfuel : items.length ≤ fuel) : l.itemsFrom head fuel p = items := by
  induction items generalizing p fuel with
  | nil =>
      cases fuel with
      | zero => rfl
      | succ fuel =>
          have hlast := (List.isChain_cons_cons.mp hchain).1.1
          rw [itemsFrom, hlast]
          exact if_pos rfl
  | cons item rest ih =>
      cases fuel with
      | zero => contradiction
      | succ fuel =>
          obtain ⟨⟨hnext, -⟩, hrest⟩ := List.isChain_cons_cons.mp hchain
          rw [List.mem_cons, not_or] at hhead
          have hitems := ih hrest hhead.2 (Nat.le_of_succ_le_succ hfuel)
          rw [itemsFrom, hnext]
          dsimp only
          rw [if_neg (Ne.symm hhead.1), hitems]

/-- Read off the pointers, a ring is its items. -/
theorem Ring.itemsFrom_head [DecidableEq P] (h : l.Ring head items) {fuel : Nat}
    (hfuel : items.length ≤ fuel) : l.itemsFrom head fuel head = items :=
  itemsFrom_of_chain h.chain (List.nodup_cons.mp h.nodup).1 hfuel

theorem exists_last (p : P) (rest : List P) :
    ∃ front last, p :: rest = front ++ [last] :=
  ⟨_, _, (List.dropLast_append_getLast (List.cons_ne_nil p rest)).symm⟩

end

/-! ### Inserting and unlinking -/

section

variable [DecidableEq P]

/-- A node whose two pointers lead to itself. -/
def selfLink (l : Links P) (head : P) : Links P :=
  { next := Function.update l.next head (some head)
    prev := Function.update l.prev head (some head) }

/-- Write a node between two others. -/
def link (l : Links P) (node before after : P) : Links P :=
  { next := Function.update (Function.update l.next node (some after)) before (some node)
    prev := Function.update (Function.update l.prev after (some node)) node (some before) }

/-- Let two nodes point to each other and clear the pointers of the node that was
between them. -/
def unlink (l : Links P) (node before after : P) : Links P :=
  { next := Function.update (Function.update l.next before (some after)) node none
    prev := Function.update (Function.update l.prev after (some before)) node none }

variable {l : Links P} {head : P} {items : List P}

/-- A head alone is an empty ring. -/
theorem ring_selfLink (l : Links P) (head : P) : (l.selfLink head).Ring head [] := by
  have hjoined : (l.selfLink head).Joined head head := by simp [Joined, selfLink]
  exact ⟨.cons_cons hjoined (.singleton head), by simp⟩

/-- Writing a node between two others leaves the rings that hold none of the
three. -/
theorem Ring.link_frame (h : l.Ring head items) {node before after : P}
    (hnode : node ∉ head :: items) (hbefore : before ∉ head :: items)
    (hafter : after ∉ head :: items) : (l.link node before after).Ring head items := by
  apply h.frame_of_changed [node, before, after]
  · intro p hp
    simp only [List.mem_cons, List.not_mem_nil, or_false, not_or] at hp
    rcases hp with ⟨hpNode, hpBefore, hpAfter⟩
    simp [link, hpNode, hpBefore, hpAfter]
  · simp only [List.forall_mem_cons]
    exact ⟨hnode, hbefore, hafter, by simp⟩

/-- Unlinking a node leaves the rings that hold neither it nor its neighbours. -/
theorem Ring.unlink_frame (h : l.Ring head items) {node before after : P}
    (hnode : node ∉ head :: items) (hbefore : before ∉ head :: items)
    (hafter : after ∉ head :: items) : (l.unlink node before after).Ring head items := by
  apply h.frame_of_changed [node, before, after]
  · intro p hp
    simp only [List.mem_cons, List.not_mem_nil, or_false, not_or] at hp
    rcases hp with ⟨hpNode, hpBefore, hpAfter⟩
    simp [unlink, hpNode, hpBefore, hpAfter]
  · simp only [List.forall_mem_cons]
    exact ⟨hnode, hbefore, hafter, by simp⟩

/-- A node that links itself leaves the rings that do not hold it. -/
theorem Ring.selfLink_frame (h : l.Ring head items) {node : P}
    (hnode : node ∉ head :: items) : (l.selfLink node).Ring head items := by
  apply h.frame_of_changed [node]
  · intro p hp
    have hpNode : p ≠ node := by simpa using hp
    simp [selfLink, hpNode]
  · simpa using hnode

/-- Writing a new node between the last node and the head appends it. -/
theorem Ring.link_tail (h : l.Ring head items) {node : P} (hnew : node ∉ head :: items) :
    ∃ last ∈ head :: items, l.prev head = some last ∧
      (l.link node last head).Ring head (items ++ [node]) := by
  rcases exists_last head items with ⟨front, last, hsplit⟩
  have hchain := h.chain
  rw [← List.cons_append, hsplit] at hchain
  rcases chain_append.mp hchain with ⟨hfront, hlast, _⟩
  have hnodup := h.nodup
  have hhead : head ∈ front ++ [last] := hsplit ▸ List.mem_cons_self
  have htail : head ∉ (front ++ [last]).tail := by
    rw [← hsplit]
    exact (List.nodup_cons.mp hnodup).1
  rw [hsplit] at hnodup hnew ⊢
  have hne : ∀ p ∈ front ++ [last], p ≠ node := fun p hp hsame => hnew (hsame ▸ hp)
  have hlastNew : last ∉ front := by
    intro hmem
    exact (List.nodup_append.mp hnodup).2.2 last hmem last (by simp) rfl
  refine ⟨last, by simp, hlast.2, ?_, ?_⟩
  · have hnodes : head :: ((items ++ [node]) ++ [head]) =
        (front ++ [last]) ++ (node :: [head]) := by
      rw [← hsplit]
      simp
    rw [hnodes]
    apply chain_append.mpr
    refine ⟨chain_congr hfront ?_ ?_, ?_, .cons_cons ?_ (.singleton head)⟩
    · intro p hp
      rw [List.dropLast_concat] at hp
      have hpLast : p ≠ last := fun hsame => hlastNew (hsame ▸ hp)
      simp [link, Function.update_of_ne hpLast, Function.update_of_ne (hne p (by simp [hp]))]
    · intro p hp
      have hpHead : p ≠ head := fun hsame => htail (hsame ▸ hp)
      have hpNode := hne p (List.mem_of_mem_tail hp)
      simp [link, Function.update_of_ne hpHead, Function.update_of_ne hpNode]
    · simp [Joined, link]
    · simp [Joined, link, Function.update_of_ne (hne head hhead),
        Function.update_of_ne (hne last (by simp)).symm]
  · rw [← List.cons_append, hsplit]
    apply List.nodup_append.mpr
    refine ⟨hnodup, by simp, ?_⟩
    intro p hp q hq
    rw [List.mem_singleton.mp hq]
    exact hne p hp

/-- Unlinking an item leaves the ring of the others. -/
theorem Ring.unlink_item {before after : List P} {node : P}
    (h : l.Ring head (before ++ node :: after)) :
    ∃ p ∈ head :: (before ++ after), ∃ q ∈ head :: (before ++ after),
      l.prev node = some p ∧ l.next node = some q ∧
      (l.unlink node p q).Ring head (before ++ after) := by
  rcases exists_last head before with ⟨front, p, hfront⟩
  obtain ⟨q, back, hback⟩ : ∃ q back, after ++ [head] = q :: back := by
    cases after with
    | nil => exact ⟨head, [], rfl⟩
    | cons q rest => exact ⟨q, rest ++ [head], rfl⟩
  have hchain := h.chain
  have hnodes : head :: ((before ++ node :: after) ++ [head]) =
      (front ++ [p]) ++ (node :: (q :: back)) := by
    rw [← hback, ← hfront]
    simp
  rw [hnodes] at hchain
  rcases chain_append.mp hchain with ⟨hfrontChain, hp, hrest⟩
  rcases List.isChain_cons_cons.mp hrest with ⟨hq, hbackChain⟩
  have hnodup := h.nodup
  have hpMem : p ∈ head :: before := by simp [hfront]
  have hqMem : q ∈ after ++ [head] := by simp [hback]
  have hkeptNodup : (head :: (before ++ after)).Nodup ∧ node ∉ head :: (before ++ after) := by
    grind [List.nodup_append]
  -- the pointers written belong to the ends of the two parts, which their chains
  -- do not read
  have hfrontNext : ∀ r ∈ (front ++ [p]).dropLast, r ≠ p ∧ r ≠ node := by
    grind [List.nodup_append]
  have hfrontPrev : ∀ r ∈ (front ++ [p]).tail, r ≠ q ∧ r ≠ node := by
    rw [← hfront]
    grind [List.nodup_append]
  have hbackNext : ∀ r ∈ (q :: back).dropLast, r ≠ p ∧ r ≠ node := by
    rw [← hback, List.dropLast_concat]
    grind [List.nodup_append]
  have hbackPrev : ∀ r ∈ (q :: back).tail, r ≠ q ∧ r ≠ node := by
    grind [List.nodup_append]
  have hpNode : p ≠ node := by grind
  have hqNode : q ≠ node := by grind
  refine ⟨p, by grind, q, by grind, hp.2, hq.1, ?_, hkeptNodup.1⟩
  · have hkept : head :: ((before ++ after) ++ [head]) = (front ++ [p]) ++ (q :: back) := by
      rw [← hback, ← hfront]
      simp
    rw [hkept]
    apply chain_append.mpr
    refine ⟨chain_congr hfrontChain ?_ ?_, ?_, chain_congr hbackChain ?_ ?_⟩
    · intro r hr
      simp [unlink, Function.update_of_ne (hfrontNext r hr).1,
        Function.update_of_ne (hfrontNext r hr).2]
    · intro r hr
      simp [unlink, Function.update_of_ne (hfrontPrev r hr).1,
        Function.update_of_ne (hfrontPrev r hr).2]
    · simp [Joined, unlink, Function.update_of_ne hpNode, Function.update_of_ne hqNode]
    · intro r hr
      simp [unlink, Function.update_of_ne (hbackNext r hr).1,
        Function.update_of_ne (hbackNext r hr).2]
    · intro r hr
      simp [unlink, Function.update_of_ne (hbackPrev r hr).1,
        Function.update_of_ne (hbackPrev r hr).2]

end

end Links

end Foundation
