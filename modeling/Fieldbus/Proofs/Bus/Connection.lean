import Fieldbus.Proofs.Bus.Run
import Fieldbus.Proofs.Device.Counters

namespace Fieldbus

namespace Connection

variable {ρ : Type}

/-- By a connection, a node has taken so many frames from its queue and has sent others, which are
in flight from it. The queues of other nodes and the time of the bus are as before. -/
structure Trades (p : Connection ρ) (taken : Nat) (frames : List Frame) (q : Connection ρ) :
    Prop where
  node : q.node = p.node
  clock : q.bus.clock = p.bus.clock
  inboxes : q.bus.inboxes = p.bus.inboxes.set p.node ((p.bus.inbox p.node).drop taken)
  inFlight : ∃ sent : List InFlight, q.bus.inFlight = p.bus.inFlight ++ sent ∧
    sent.map (·.frame) = frames ∧ ∀ x ∈ sent, x.sender = p.node

theorem set_inbox_self (b : Bus ρ) (node : Nat) : b.inboxes.set node (b.inbox node) = b.inboxes := by
  rcases Nat.lt_or_ge node b.inboxes.length with inside | outside
  · have hinbox : b.inbox node = b.inboxes[node] := by simp [Bus.inbox, inside]
    rw [hinbox, List.set_getElem_self]
  · exact List.set_eq_of_length_le outside

namespace Trades

variable {p q r : Connection ρ} {n m : Nat} {frames more : List Frame}

theorem refl (p : Connection ρ) : p.Trades 0 [] p where
  node := rfl
  clock := rfl
  inboxes := (set_inbox_self p.bus p.node).symm
  inFlight := ⟨[], by simp⟩

theorem inbox (h : p.Trades n frames q) : q.bus.inbox q.node = (p.bus.inbox p.node).drop n := by
  rw [h.node]
  rcases Nat.lt_or_ge p.node p.bus.inboxes.length with inside | outside
  · rw [Bus.inbox, h.inboxes, List.getD_eq_getElem?_getD, List.getElem?_set_self inside,
      Option.getD_some]
  · have hempty : p.bus.inbox p.node = [] := by simp [Bus.inbox, List.getElem?_eq_none outside]
    rw [Bus.inbox, h.inboxes, List.set_eq_of_length_le outside, hempty, List.drop_nil]
    exact hempty

theorem trans (h : p.Trades n frames q) (h' : q.Trades m more r) :
    p.Trades (n + m) (frames ++ more) r where
  node := h'.node.trans h.node
  clock := h'.clock.trans h.clock
  inboxes := by
    rw [h'.inboxes, h.inbox, h.inboxes, h.node, List.set_set, List.drop_drop]
  inFlight := by
    obtain ⟨sent, hflight, hframes, hsender⟩ := h.inFlight
    obtain ⟨sent', hflight', hframes', hsender'⟩ := h'.inFlight
    refine ⟨sent ++ sent', ?_, ?_, ?_⟩
    · rw [hflight', hflight, List.append_assoc]
    · rw [List.map_append, hframes, hframes']
    · intro x hx
      rcases List.mem_append.mp hx with hx | hx
      · exact hsender x hx
      · rw [hsender' x hx, h.node]

end Trades

theorem trades_send (p : Connection ρ) (frame : Frame) (delay : Nat) :
    p.Trades 0 [frame] { p with bus := p.bus.send p.node frame delay } where
  node := rfl
  clock := rfl
  inboxes := (set_inbox_self p.bus p.node).symm
  inFlight := ⟨[⟨p.node, frame, p.bus.elapsed + delay⟩], rfl, rfl, by simp⟩

theorem trades_setClock (p : Connection ρ) (secs : UInt32) :
    p.Trades 0 [] (p.setClock secs).2 := by
  unfold setClock
  split
  next => exact { Trades.refl p with }
  next => exact .refl p

/-- A bus clock within 63 bits can be matched. -/
theorem result_setClock {p : Connection ρ} (early : p.bus.clock < 0x8000000000000000)
    (secs : UInt32) : (p.setClock secs).1 = .ok () := by
  rw [setClock, if_pos early]

theorem receive_eq (p : Connection ρ) :
    p.receive =
      (.ok (p.bus.inbox p.node).head?,
        { p with bus := { p.bus with
          inboxes := p.bus.inboxes.set p.node ((p.bus.inbox p.node).drop 1) } }) := by
  cases queue : p.bus.inbox p.node with
  | nil =>
    have hsame : p.bus.inboxes.set p.node [] = p.bus.inboxes := by
      rw [← queue, set_inbox_self]
    rw [receive, Bus.take_of_nil queue, List.drop_nil, hsame]
    rfl
  | cons f rest =>
    rw [receive, Bus.take_of_cons queue]
    rfl

theorem trades_receive (p : Connection ρ) : p.Trades 1 [] p.receive.2 := by
  rw [receive_eq]
  exact { node := rfl, clock := rfl, inboxes := rfl, inFlight := ⟨[], by simp⟩ }

variable [Chance ρ]

theorem trades_delayBetween (p : Connection ρ) (low high : Nat) :
    p.Trades 0 [] (delayBetween p low high).2 := by
  unfold delayBetween
  split
  next => exact .refl p
  next => exact { Trades.refl p with }

theorem incoming?_eq (p : Connection ρ) : incoming? p = (p.bus.inbox p.node).head? := by
  have hreceive : (Platform.receive p).1 = .ok (p.bus.inbox p.node).head? :=
    congrArg Prod.fst (receive_eq p)
  rw [incoming?, hreceive]

end Connection

section Device

variable {α ρ : Type} [Chance ρ] {p : Connection ρ} {out : Polled α (Connection ρ)}

/-- On a bus, a frame that is handed over is always taken. -/
theorem Polled.Posts.trades {wait : Nat × Connection ρ} (h : out.Posts wait p)
    (idle : p.Trades 0 [] wait.2) :
    p.Trades 0 (sentFrames out.acts) out.platform ∧ out.result = .ok () := by
  cases h with
  | nothing silent fine same =>
    rw [silent, same]
    exact ⟨.refl p, fine⟩
  | one frame sent handed =>
    obtain ⟨hresult, hplatform⟩ := Prod.mk.inj handed
    rw [sent, ← hplatform, ← hresult]
    exact ⟨idle.trans (Connection.trades_send wait.2 frame wait.1), rfl⟩

namespace Device

variable {d : Device α}

theorem Syncing.trades (h : d.Syncing p out) :
    p.Trades 0 (sentFrames out.acts) out.platform ∧
      (p.bus.clock < 0x8000000000000000 → out.result = .ok ()) := by
  have hset (secs : UInt32) : p.Trades 0 [] (Platform.setClock p secs).2 := p.trades_setClock secs
  cases h with
  | idle => exact ⟨.refl p, fun _ => rfl⟩
  | refused secs fault q _ told =>
    have hq := hset secs
    rw [told] at hq
    refine ⟨hq, fun early => ?_⟩
    have hfine : (Platform.setClock p secs).1 = .ok () := Connection.result_setClock early secs
    rw [told] at hfine
    cases hfine
  | set secs q _ told =>
    have hq := hset secs
    rw [told] at hq
    exact ⟨hq, fun _ => rfl⟩

variable [Application α]

theorem trades_reply (d : Device α) (p : Connection ρ) (query : Frame) :
    p.Trades 0 (sentFrames (d.reply p query).acts) (d.reply p query).platform ∧
      (d.reply p query).result = .ok () := by
  apply (posts_reply d p query).trades
  unfold responseDelay
  split
  next => exact p.trades_delayBetween _ _
  next => exact .refl p

theorem trades_report (d : Device α) (p : Connection ρ) :
    p.Trades 0 (sentFrames (d.report p).acts) (d.report p).platform ∧
      (d.report p).result = .ok () := by
  apply (posts_report d p).trades
  unfold telemetryDelay
  split
  next => exact p.trades_delayBetween _ _
  next => exact .refl p

theorem Taking.trades (h : d.Taking p out) :
    p.Trades 1 (sentFrames out.acts) out.platform ∧
      (p.bus.clock < 0x8000000000000000 → out.result = .ok ()) := by
  have hreceive : p.Trades 1 [] (Platform.receive p).2 := p.trades_receive
  cases h with
  | idle => exact ⟨hreceive, fun _ => rfl⟩
  | unsent query q received fault failed =>
    rw [(trades_reply _ q query).2] at failed
    cases failed
  | served query q received replied synced reply _ sync =>
    rw [received] at hreceive
    have hreply := (trades_reply (d.updateTime (Platform.now p)) q query).1
    obtain ⟨hsync, hfine⟩ := sync.trades
    rw [reply] at hreply
    rw [sentFrames_append]
    refine ⟨hreceive.trans (hreply.trans hsync), fun early => hfine ?_⟩
    rwa [hreply.clock, hreceive.clock]

/-- On a bus, a poll takes one frame from the queue of its node, if there is one. It fails only if
the time of the bus does not fit in 63 bits. -/
theorem trades_poll (d : Device α) (p : Connection ρ) :
    p.Trades 1 (sentFrames (d.poll p).acts) (d.poll p).platform ∧
      (p.bus.clock < 0x8000000000000000 → (d.poll p).result = .ok ()) := by
  obtain ⟨htake, hfine⟩ := (taking d p).trades
  obtain ⟨hreport, hsent⟩ := trades_report (d.take p).device (d.take p).platform
  have hreceived : (Platform.receive p).1 = .ok (p.bus.inbox p.node).head? :=
    congrArg Prod.fst p.receive_eq
  rw [poll_eq]
  split
  next fault failed =>
    refine ⟨htake, fun early => ?_⟩
    rw [hfine early] at failed
    cases failed
  next =>
    rw [sentFrames_append]
    refine ⟨htake.trans hreport, fun _ => ?_⟩
    simp only [hsent, hreceived]
    rfl

end Device

end Device

end Fieldbus
