import LibPaxos.Types
import LibPaxos.Lib.Runs
import LibPaxos.Lib.Ring

/-!
# The clients of a peer

`on_accept` and `on_client_event` of `peers.c`. The clients are an array of pointers, and the id of
a client is its place there. When a client goes, the pointers behind it move down by one, and each
client that moves gets its new id.

* **`clients_follow_connections`** — over every history of connections the array lists the connected
  clients in the order in which they were accepted, and each of them has its place as id.
-/

namespace LibPaxos.EvPaxos

/-! ## Memory -/

/-- `struct peer`: the id, and the socket of its bufferevent. -/
structure Peer where
  id : Nat
  fd : Int
deriving DecidableEq

/-- `struct peers`, as far as it is about clients, with the peers in memory by their address. -/
structure Peers where
  clientsCount : Nat
  clients : List Nat
  memory : AList fun _ : Nat => Peer

/-- `clients[i]`. -/
def clientAt (clients : List Nat) (i : Nat) : Except Fault Nat :=
  match clients[i]? with
  | none => .error .outOfBounds
  | some p => .ok p

/-- `clients[i] = p`. -/
def setClient (clients : List Nat) (i p : Nat) : Except Fault (List Nat) :=
  if i < clients.length then .ok (clients.set i p) else .error .outOfBounds

/-- `*p`; an address where no peer is, is like the null pointer. -/
def deref (memory : AList fun _ : Nat => Peer) (p : Nat) : Except Fault Peer :=
  match memory.lookup p with
  | none => .error .nullPointer
  | some peer => .ok peer

/-- `realloc` to `n` cells. What a new cell holds is up to `realloc`. -/
def realloc (junk : Nat) (clients : List Nat) (n : Nat) : List Nat :=
  clients.take n ++ List.replicate (n - clients.length) junk

/-! ## The functions of `peers.c` -/

/-- `make_peer`, at the address `p` that `malloc` returns. -/
def makePeer (memory : AList fun _ : Nat => Peer) (p id : Nat) : AList fun _ : Nat => Peer :=
  memory.insert p { id := id, fd := -1 }

/-- `on_accept` of a connection with the socket `fd`, where `malloc` returns `p`. -/
def onAccept (junk : Nat) (peers : Peers) (p : Nat) (fd : Int) : Except Fault Peers := do
  let clients := realloc junk peers.clients (peers.clientsCount + 1)
  let memory := makePeer peers.memory p peers.clientsCount
  let clients ← setClient clients peers.clientsCount p
  -- `bufferevent_setfd` on the peer that the array now has
  let p ← clientAt clients peers.clientsCount
  let peer ← deref memory p
  .ok { clientsCount := peers.clientsCount + 1
        clients := clients
        memory := memory.replace p { peer with fd := fd } }

/-- The loop of `on_client_event`, with the number of turns left. -/
def shiftClients : Nat → Nat → List Nat → (AList fun _ : Nat => Peer) →
    Except Fault (List Nat × AList fun _ : Nat => Peer)
  | 0, _, clients, memory => .ok (clients, memory)
  | turns + 1, i, clients, memory => do
    let next ← clientAt clients (i + 1)
    let clients ← setClient clients i next
    -- `clients[i]->id = i`, through the pointer that was just moved
    let p ← clientAt clients i
    let peer ← deref memory p
    shiftClients turns (i + 1) clients (memory.replace p { peer with id := i })

/-- The flags of a bufferevent that `on_client_event` tests. -/
structure BevEvent where
  eof : Bool
  error : Bool

/-- `on_client_event`, for the client at `p`. -/
def onClientEvent (junk : Nat) (peers : Peers) (p : Nat) (ev : BevEvent) : Except Fault Peers := do
  let peer ← deref peers.memory p
  if ev.eof || ev.error then
    let (clients, memory) ← shiftClients (peers.clientsCount - 1 - peer.id) peer.id peers.clients
      peers.memory
    .ok { clientsCount := peers.clientsCount - 1
          clients := realloc junk clients (peers.clientsCount - 1)
          -- `free_peer`
          memory := memory.erase p }
  else .ok peers

/-- `peers_foreach_client`: the clients in the order in which the callback gets them. -/
def peersForeachClient (peers : Peers) : Except Fault (List Nat) :=
  (List.range peers.clientsCount).mapM (clientAt peers.clients)

/-! ## Connections -/

/-- What libevent calls back for. -/
inductive ClientEvent where
  | accept (p : Nat) (fd : Int)
  | event (p : Nat) (ev : BevEvent)

def handleEvent (junk : Nat) (peers : Peers) : ClientEvent → Except Fault Peers
  | .accept p fd => onAccept junk peers p fd
  | .event p ev => onClientEvent junk peers p ev

/-- A peers object before the first connection. -/
def noClients : Peers where
  clientsCount := 0
  clients := []
  memory := ∅

/-- The connected clients, in the order in which they were accepted, by the address and the socket
of each: an accepted one comes last, one whose connection ended is taken out. `malloc` returns an
address that is not in use, and libevent calls back for clients that are connected. -/
def connectedAfter : List (Nat × Int) → List ClientEvent → Option (List (Nat × Int))
  | conn, [] => some conn
  | conn, .accept p fd :: es =>
    if p ∈ conn.map Prod.fst then none else connectedAfter (conn ++ [(p, fd)]) es
  | conn, .event p ev :: es =>
    if p ∈ conn.map Prod.fst then
      connectedAfter (if ev.eof || ev.error then conn.filter (·.1 ≠ p) else conn) es
    else none

/-- The array lists the connected clients: each is in memory with its place as id, and nothing else
is. -/
structure Peers.Lists (peers : Peers) (conn : List (Nat × Int)) : Prop where
  count : peers.clientsCount = conn.length
  clients : peers.clients = conn.map Prod.fst
  nodup : (conn.map Prod.fst).Nodup
  peer : ∀ i p fd, conn[i]? = some (p, fd) → peers.memory.lookup p = some { id := i, fd := fd }
  live : ∀ p, p ∈ peers.memory → p ∈ conn.map Prod.fst

section Memory

variable {clients : List Nat} {memory : AList fun _ : Nat => Peer} {i p : Nat} {peer : Peer}

theorem clientAt_eq (h : clients[i]? = some p) : clientAt clients i = .ok p := by
  unfold clientAt
  rw [h]

theorem setClient_eq (h : i < clients.length) (p : Nat) :
    setClient clients i p = .ok (clients.set i p) :=
  if_pos h

theorem deref_eq (h : memory.lookup p = some peer) : deref memory p = .ok peer := by
  unfold deref
  rw [h]

/-- One cell more than there were. -/
theorem realloc_succ (junk : Nat) (clients : List Nat) :
    realloc junk clients (clients.length + 1) = clients ++ [junk] := by
  unfold realloc
  rw [List.take_of_length_le (Nat.le_succ _), Nat.add_sub_cancel_left]
  rfl

/-- One cell less than there were. -/
theorem realloc_concat (junk : Nat) (clients : List Nat) (last : Nat) :
    realloc junk (clients ++ [last]) clients.length = clients := by
  unfold realloc
  rw [List.take_left, List.length_append, Nat.sub_eq_zero_of_le (Nat.le_add_right _ _)]
  exact List.append_nil clients

end Memory

/-! ## A connection is accepted -/

section Accept

variable {peers : Peers} {conn : List (Nat × Int)} {p : Nat}

theorem Peers.Lists.clients_eq (h : peers.Lists conn) :
    peers.clients.length = peers.clientsCount := by
  rw [h.clients, h.count, List.length_map]

/-- One client more, with the next id, at an address that was not in use. -/
theorem Peers.Lists.added (h : peers.Lists conn) (hp : p ∉ conn.map Prod.fst) (fd : Int) :
    Peers.Lists ⟨peers.clientsCount + 1, peers.clients ++ [p],
      peers.memory.insert p { id := peers.clientsCount, fd := fd }⟩ (conn ++ [(p, fd)]) := by
  refine ⟨?_, ?_, ?_, ?_, ?_⟩
  · rw [List.length_append, ← h.count]
    rfl
  · rw [List.map_append, ← h.clients]
    rfl
  · rw [List.map_append]
    exact List.Nodup.append h.nodup (List.nodup_singleton p) (List.disjoint_singleton.mpr hp)
  · intro i q fd' hi
    show (peers.memory.insert p _).lookup q = _
    rw [AList.lookup_insert_cases]
    rcases Nat.lt_or_ge i conn.length with hlt | hge
    · -- a client that was there before
      rw [List.getElem?_append_left hlt] at hi
      have hq : q ≠ p := by
        rintro rfl
        exact hp (List.mem_map_of_mem (List.mem_of_getElem? hi))
      rw [if_neg hq]
      exact h.peer i q fd' hi
    · obtain rfl : i = conn.length := by
        have hlt := (List.getElem?_eq_some_iff.mp hi).1
        rw [List.length_append] at hlt
        exact Nat.le_antisymm (Nat.le_of_lt_succ hlt) hge
      rw [List.getElem?_concat_length] at hi
      cases hi
      rw [if_pos rfl, h.count]
  · intro q hq
    rw [List.map_append]
    rcases (AList.mem_insert _).mp hq with rfl | hold
    · exact List.mem_append_right _ List.mem_cons_self
    · exact List.mem_append_left _ (h.live q hold)

/-- **An accepted client comes last.** -/
theorem Peers.Lists.accept (h : peers.Lists conn) (junk : Nat) (hp : p ∉ conn.map Prod.fst)
    (fd : Int) : ∃ peers', onAccept junk peers p fd = .ok peers' ∧
      peers'.Lists (conn ++ [(p, fd)]) := by
  have hlen := h.clients_eq
  have hset : setClient (realloc junk peers.clients (peers.clientsCount + 1)) peers.clientsCount p
      = .ok (peers.clients ++ [p]) := by
    rw [← hlen, realloc_succ, setClient_eq (by rw [List.length_append]; exact Nat.lt_succ_self _),
      List.set_append_right _ _ (Nat.le_refl _), Nat.sub_self]
    rfl
  have hget : clientAt (peers.clients ++ [p]) peers.clientsCount = .ok p := by
    rw [← hlen]
    exact clientAt_eq List.getElem?_concat_length
  have hnew : deref (makePeer peers.memory p peers.clientsCount) p
      = .ok { id := peers.clientsCount, fd := -1 } := deref_eq (AList.lookup_insert _)
  refine ⟨_, ?_, h.added hp fd⟩
  refine Except.bind_eq_ok.mpr ⟨_, hset, Except.bind_eq_ok.mpr ⟨_, hget,
    Except.bind_eq_ok.mpr ⟨_, hnew, ?_⟩⟩⟩
  unfold makePeer
  rw [AList.replace_insert]

end Accept

/-! ## A connection ends

The loop moves the pointers behind the client down by one and gives each client it moves its new
place. `shiftClients_eq` follows it with the list of clients behind; what was freed is in no cell of
the array any more. -/

/-- One turn of the loop: the client behind `x` takes its place. -/
theorem shiftClients_succ {turns x y : Nat} {pre post : List Nat}
    {memory : AList fun _ : Nat => Peer} {peer : Peer} (hpeer : memory.lookup y = some peer) :
    shiftClients (turns + 1) pre.length (pre ++ x :: y :: post) memory
      = shiftClients turns (pre.length + 1) (pre ++ [y] ++ y :: post)
          (memory.replace y { peer with id := pre.length }) := by
  have hnext : clientAt (pre ++ x :: y :: post) (pre.length + 1) = .ok y := by
    apply clientAt_eq
    rw [List.getElem?_append_right (Nat.le_add_right _ 1), Nat.add_sub_cancel_left]
    rfl
  have hlt : pre.length < (pre ++ x :: y :: post).length := by
    rw [List.length_append]
    exact Nat.lt_add_of_pos_right (Nat.succ_pos _)
  have hset : setClient (pre ++ x :: y :: post) pre.length y = .ok (pre ++ [y] ++ y :: post) := by
    rw [setClient_eq hlt, List.set_append_right _ _ (Nat.le_refl _), Nat.sub_self,
      List.append_assoc]
    rfl
  have hget : clientAt (pre ++ [y] ++ y :: post) pre.length = .ok y := by
    apply clientAt_eq
    rw [List.append_assoc, List.getElem?_append_right (Nat.le_refl _), Nat.sub_self]
    rfl
  rw [shiftClients, hnext, Except.ok_bind, hset, Except.ok_bind, hget, Except.ok_bind,
    deref_eq hpeer, Except.ok_bind]

/-- What renumbering does to the memory: the clients in `post` have ids from `start` on, everything
else is as before. -/
structure Renumbered (start : Nat) (post : List Nat) (memory memory' : AList fun _ : Nat => Peer) :
    Prop where
  mem : ∀ p, p ∈ memory' ↔ p ∈ memory
  other : ∀ p, p ∉ post → memory'.lookup p = memory.lookup p
  moved : ∀ j p peer, post[j]? = some p → memory.lookup p = some peer →
    memory'.lookup p = some { peer with id := start + j }

/-- Renumbering a client and then those behind it. -/
theorem Renumbered.cons {start y : Nat} {post : List Nat}
    {memory memory' : AList fun _ : Nat => Peer} {peer : Peer} (hpeer : memory.lookup y = some peer)
    (hy : y ∉ post)
    (h : Renumbered (start + 1) post (memory.replace y { peer with id := start }) memory') :
    Renumbered start (y :: post) memory memory' where
  mem p := (h.mem p).trans AList.mem_replace
  other p hp := by
    have hne : p ≠ y := by
      rintro rfl
      exact hp List.mem_cons_self
    rw [h.other p fun hmem => hp (List.mem_cons_of_mem _ hmem),
      AList.lookup_replace _ _ (AList.mem_of_lookup hpeer), if_neg hne]
  moved j p peer' hj hp := by
    cases j with
    | zero =>
      obtain rfl : y = p := Option.some.inj hj
      obtain rfl : peer = peer' := Option.some.inj (hpeer.symm.trans hp)
      rw [h.other y hy]
      exact AList.lookup_replace_self _ hpeer
    | succ j =>
      have hne : p ≠ y := by
        rintro rfl
        exact hy (List.mem_of_getElem? hj)
      have hold : (memory.replace y { peer with id := start }).lookup p = some peer' := by
        rw [AList.lookup_replace _ _ (AList.mem_of_lookup hpeer), if_neg hne]
        exact hp
      rw [h.moved j p peer' hj hold, Nat.add_assoc, Nat.add_comm 1 j]

/-- **The loop**, by induction on the clients behind the one that goes: they move down by one and
are renumbered, and the last cell is left as it was. -/
theorem shiftClients_eq : ∀ (post pre : List Nat) (x : Nat) (memory : AList fun _ : Nat => Peer),
    (∀ p ∈ post, p ∈ memory) → post.Nodup → ∃ last memory',
      shiftClients post.length pre.length (pre ++ x :: post) memory
        = .ok (pre ++ post ++ [last], memory') ∧
      Renumbered pre.length post memory memory' := by
  intro post
  induction post with
  | nil =>
    intro pre x memory _ _
    refine ⟨x, memory, ?_, fun _ => Iff.rfl, fun _ _ => rfl, fun j p peer hj => ?_⟩
    · rw [List.append_nil]
      rfl
    · cases hj
  | cons y post ih =>
    intro pre x memory hlive hnodup
    obtain ⟨hy, hnodup'⟩ := List.nodup_cons.mp hnodup
    obtain ⟨peer, hpeer⟩ := AList.lookup_eq_some_of_mem (hlive y List.mem_cons_self)
    obtain ⟨last, memory', hrest, hren⟩ := ih (pre ++ [y]) y
      (memory.replace y { peer with id := pre.length })
      (fun p hp => AList.mem_replace.mpr (hlive p (List.mem_cons_of_mem _ hp))) hnodup'
    rw [List.length_append, List.length_singleton] at hrest hren
    refine ⟨last, memory', ?_, hren.cons hpeer hy⟩
    rw [List.length_cons, shiftClients_succ hpeer, hrest, List.append_assoc pre [y]]
    rfl

section Disconnect

variable {peers : Peers} {conn : List (Nat × Int)} {p : Nat}

theorem Peers.Lists.peer_middle {pre post : List (Nat × Int)} {fd : Int}
    (h : peers.Lists (pre ++ (p, fd) :: post)) :
    peers.memory.lookup p = some { id := pre.length, fd := fd } := by
  apply h.peer
  rw [List.getElem?_append_right (Nat.le_refl _), Nat.sub_self]
  rfl

/-- The client at `p` is in its place once. -/
theorem Peers.Lists.notMem {pre post : List (Nat × Int)} {fd : Int}
    (h : peers.Lists (pre ++ (p, fd) :: post)) :
    p ∉ pre.map Prod.fst ∧ p ∉ post.map Prod.fst ∧
      ((pre ++ post).map Prod.fst).Nodup := by
  have hnodup := h.nodup
  rw [List.map_append, List.map_cons] at hnodup
  have hmiddle := List.nodup_middle.mp hnodup
  obtain ⟨hp, hrest⟩ := List.nodup_cons.mp hmiddle
  rw [List.mem_append, not_or] at hp
  rw [List.map_append]
  exact ⟨hp.1, hp.2, hrest⟩

/-- The client at `p` is not there any more and those behind it are renumbered. -/
theorem Peers.Lists.removed {pre post : List (Nat × Int)} {fd : Int}
    (h : peers.Lists (pre ++ (p, fd) :: post)) {memory' : AList fun _ : Nat => Peer}
    (hren : Renumbered pre.length (post.map Prod.fst) peers.memory memory') :
    Peers.Lists ⟨pre.length + post.length, (pre ++ post).map Prod.fst, memory'.erase p⟩
      (pre ++ post) := by
  obtain ⟨hpre, hpost, hnodup⟩ := h.notMem
  refine ⟨List.length_append.symm, rfl, hnodup, ?_, ?_⟩
  · intro i q fd' hi
    have hq : q ≠ p := by
      rintro rfl
      have hmem := List.mem_map_of_mem (f := Prod.fst) (List.mem_of_getElem? hi)
      rw [List.map_append, List.mem_append] at hmem
      exact hmem.elim hpre hpost
    show (memory'.erase p).lookup q = _
    rw [AList.lookup_erase_ne hq]
    rcases Nat.lt_or_ge i pre.length with hlt | hge
    · -- in front of the client that goes
      rw [List.getElem?_append_left hlt] at hi
      have hold := h.peer i q fd' (by rw [List.getElem?_append_left hlt]; exact hi)
      have hfront : q ∈ pre.map Prod.fst := List.mem_map_of_mem (List.mem_of_getElem? hi)
      rw [List.map_append] at hnodup
      rw [hren.other q fun hmem => (List.disjoint_of_nodup_append hnodup) hfront hmem]
      exact hold
    · -- behind it, one place further down than before
      obtain ⟨j, rfl⟩ := Nat.exists_eq_add_of_le hge
      rw [List.getElem?_append_right hge, Nat.add_sub_cancel_left] at hi
      have hold : peers.memory.lookup q = some { id := pre.length + (j + 1), fd := fd' } := by
        apply h.peer
        rw [List.getElem?_append_right (Nat.le_add_right _ _), Nat.add_sub_cancel_left]
        exact hi
      exact hren.moved j q _ (by rw [List.getElem?_map, hi]; rfl) hold
  · intro q hq
    obtain ⟨hne, hmem⟩ := AList.mem_erase.mp hq
    have hold := h.live q ((hren.mem q).mp hmem)
    rw [List.map_append, List.map_cons, List.mem_append, List.mem_cons] at hold
    rw [List.map_append, List.mem_append]
    rcases hold with hfront | heq | hback
    · exact .inl hfront
    · exact absurd heq hne
    · exact .inr hback

/-- **A client that goes is taken out**, wherever it is. -/
theorem Peers.Lists.disconnect {pre post : List (Nat × Int)} {fd : Int}
    (h : peers.Lists (pre ++ (p, fd) :: post)) (junk : Nat) {ev : BevEvent}
    (hev : (ev.eof || ev.error) = true) :
    ∃ peers', onClientEvent junk peers p ev = .ok peers' ∧ peers'.Lists (pre ++ post) := by
  obtain ⟨-, -, hnodup⟩ := h.notMem
  have hcount : peers.clientsCount - 1 = pre.length + post.length := by
    rw [h.count, List.length_append, List.length_cons]
    rfl
  -- the loop writes to the clients behind, which are in memory
  have hlive : ∀ q ∈ post.map Prod.fst, q ∈ peers.memory := by
    intro q hq
    obtain ⟨c, hc, rfl⟩ := List.mem_map.mp hq
    obtain ⟨i, hi⟩ := List.getElem?_of_mem (List.mem_append_right pre (List.mem_cons_of_mem _ hc))
    exact AList.mem_of_lookup (h.peer i c.1 c.2 hi)
  rw [List.map_append] at hnodup
  obtain ⟨last, memory', hshift, hren⟩ := shiftClients_eq (post.map Prod.fst) (pre.map Prod.fst) p
    peers.memory hlive hnodup.of_append_right
  rw [List.length_map, List.length_map] at hshift
  rw [List.length_map] at hren
  refine ⟨_, ?_, h.removed hren⟩
  have hclients : peers.clients = pre.map Prod.fst ++ p :: post.map Prod.fst := by
    rw [h.clients, List.map_append]
    rfl
  -- the last cell is what `realloc` cuts off
  have hrealloc : realloc junk (pre.map Prod.fst ++ post.map Prod.fst ++ [last])
      (pre.length + post.length) = (pre ++ post).map Prod.fst := by
    have hlen : (pre.map Prod.fst ++ post.map Prod.fst).length = pre.length + post.length := by
      rw [List.length_append, List.length_map, List.length_map]
    rw [← hlen, realloc_concat, List.map_append]
  refine Except.bind_eq_ok.mpr ⟨_, deref_eq h.peer_middle, ?_⟩
  rw [if_pos hev, hcount, Nat.add_sub_cancel_left, hclients]
  refine Except.bind_eq_ok.mpr ⟨_, hshift, ?_⟩
  rw [← hrealloc]

/-- The connected clients without the one at `p`. -/
theorem filter_ne_of_notMem {pre post : List (Nat × Int)} {fd : Int} (hpre : p ∉ pre.map Prod.fst)
    (hpost : p ∉ post.map Prod.fst) :
    (pre ++ (p, fd) :: post).filter (·.1 ≠ p) = pre ++ post := by
  have hall : ∀ {l : List (Nat × Int)}, p ∉ l.map Prod.fst → l.filter (·.1 ≠ p) = l := by
    intro l hl
    refine List.filter_eq_self.mpr fun c hc => decide_eq_true ?_
    rintro rfl
    exact hl (List.mem_map_of_mem hc)
  rw [List.filter_append, List.filter_cons_of_neg (by simp), hall hpre, hall hpost]

/-- A callback for a client that is connected. -/
theorem Peers.Lists.event (h : peers.Lists conn) (junk : Nat) (hp : p ∈ conn.map Prod.fst)
    (ev : BevEvent) : ∃ peers', onClientEvent junk peers p ev = .ok peers' ∧
      peers'.Lists (if ev.eof || ev.error then conn.filter (·.1 ≠ p) else conn) := by
  obtain ⟨⟨q, fd⟩, hc, rfl⟩ := List.mem_map.mp hp
  obtain ⟨pre, post, rfl⟩ := List.append_of_mem hc
  by_cases hev : (ev.eof || ev.error) = true
  · obtain ⟨hpre, hpost, -⟩ := h.notMem
    rw [if_pos hev, filter_ne_of_notMem hpre hpost]
    exact h.disconnect junk hev
  · rw [if_neg hev]
    refine ⟨peers, Except.bind_eq_ok.mpr ⟨_, deref_eq h.peer_middle, ?_⟩, h⟩
    rw [if_neg hev]

end Disconnect

/-! ## Histories -/

theorem noClients_lists : noClients.Lists [] where
  count := rfl
  clients := rfl
  nodup := List.nodup_nil
  peer i p fd h := by cases h
  live p h := absurd h (AList.notMem_empty p)

theorem Peers.Lists.foreach {peers : Peers} {conn : List (Nat × Int)} (h : peers.Lists conn) :
    peersForeachClient peers = .ok (conn.map Prod.fst) := by
  unfold peersForeachClient
  rw [h.count, ← List.length_map (f := Prod.fst), h.clients]
  exact List.mapM_range_eq_ok fun i x hx => clientAt_eq hx

/-- **Every history**, event by event. -/
theorem Peers.Lists.events (junk : Nat) : ∀ {es : List ClientEvent} {peers : Peers}
    {conn conn' : List (Nat × Int)}, peers.Lists conn → connectedAfter conn es = some conn' →
    ∃ peers', es.foldlM (handleEvent junk) peers = .ok peers' ∧ peers'.Lists conn' := by
  intro es
  induction es with
  | nil =>
    intro peers conn conn' h hconn
    cases hconn
    exact ⟨peers, rfl, h⟩
  | cons e es ih =>
    intro peers conn conn' h hconn
    cases e with
    | accept p fd =>
      rw [connectedAfter] at hconn
      split at hconn
      · cases hconn
      · rename_i hp
        obtain ⟨peers₁, hstep, h₁⟩ := h.accept junk hp fd
        obtain ⟨peers', hrun, h'⟩ := ih h₁ hconn
        exact ⟨peers', Except.bind_eq_ok.mpr ⟨_, hstep, hrun⟩, h'⟩
    | event p ev =>
      rw [connectedAfter] at hconn
      split at hconn
      · rename_i hp
        obtain ⟨peers₁, hstep, h₁⟩ := h.event junk hp ev
        obtain ⟨peers', hrun, h'⟩ := ih h₁ hconn
        exact ⟨peers', Except.bind_eq_ok.mpr ⟨_, hstep, hrun⟩, h'⟩
      · cases hconn

/-- **The clients follow the connections.** For every history of connections, the callbacks return,
and afterwards the array lists the connected clients in the order in which they were accepted, each
once and with its place as id; the sockets are those that were accepted; no other client is in
memory; and `peers_foreach_client` calls back for these clients in this order. -/
theorem clients_follow_connections (junk : Nat) (es : List ClientEvent) (conn : List (Nat × Int))
    (hconn : connectedAfter [] es = some conn) :
    ∃ peers, es.foldlM (handleEvent junk) noClients = .ok peers ∧ peers.Lists conn ∧
      peersForeachClient peers = .ok (conn.map Prod.fst) := by
  obtain ⟨peers, hrun, hlists⟩ := noClients_lists.events junk hconn
  exact ⟨peers, hrun, hlists, hlists.foreach⟩

/-- Four clients, the second and the first go, the address of the second is used again. -/
theorem clients_follow_connections_four :
    ∃ peers, [ClientEvent.accept 100 5, .accept 200 6, .accept 300 7, .accept 400 8,
        .event 200 ⟨true, false⟩, .event 100 ⟨false, true⟩, .event 300 ⟨false, false⟩,
        .accept 200 9].foldlM (handleEvent 0) noClients = .ok peers ∧
      peers.Lists [(300, 7), (400, 8), (200, 9)] ∧
      peersForeachClient peers = .ok [300, 400, 200] :=
  clients_follow_connections 0 _ [(300, 7), (400, 8), (200, 9)] (by decide)

end LibPaxos.EvPaxos
