import Unicomm.Comm.Ops

/-!
# `Comm.SendErrors` — what a send that throws leaves behind

`prepare_to_write` takes the message by `const` reference, casts the `const` away and writes identifier and
priority into it; only then comes what can fail. The queue is never touched by a send that fails
(`queue_of_error`). The message is as before exactly when there was nothing to write into it: `Unstamped`.
-/

namespace Unicomm.Comm

variable {B : Build} {conf : Config B} {m : BinMessage B} {c : Comm B}

/-- `prepare_to_write` has nothing to write into the message: it draws no identifier for it, and the message has
    the priority it is sent with. -/
def Unstamped (conf : Config B) (m : BinMessage B) : Prop :=
  ¬ (conf.useUniqueMessageId = true ∧ m.idExists = false) ∧ sendPriority conf m = m.priority

instance (conf : Config B) (m : BinMessage B) : Decidable (Unstamped conf m) :=
  inferInstanceAs (Decidable (_ ∧ _))

/-- The call leaves everything as if it had not been made: the queue, the caller's message, and what every later
    send of this message does, here or on another connection. -/
structure Undone (conf : Config B) (m : BinMessage B) (c : Comm B) (p : Prepared B) : Prop where
  queue    : p.comm.prepearedMQueue = c.prepearedMQueue
  id       : p.message.id = m.id
  priority : p.message.priority = m.priority
  again    : p.comm.prepareToWrite conf p.message = c.prepareToWrite conf m
  other    : ∀ c' : Comm B, c'.prepareToWrite conf p.message = c'.prepareToWrite conf m

/-! ## What is written into the message -/

/-- Without an identifier to draw the message keeps its own and the counter stays. -/
theorem drawMid_of_not (h : ¬ (conf.useUniqueMessageId = true ∧ m.idExists = false)) :
    drawMid conf m c = (m.id, c) := by
  unfold drawMid
  rw [if_neg]
  intro hdraw
  apply h
  simpa using hdraw

/-- A drawn identifier is another one than the message had. -/
theorem drawMid_ne (h : conf.useUniqueMessageId = true ∧ m.idExists = false) : (drawMid conf m c).1 ≠ m.id := by
  have hid : m.id = undefinedMessageid := by
    simpa [BinMessage.idExists] using h.2
  unfold drawMid
  rw [if_pos (by simp [h.1, h.2]), hid]
  exact newMid_ne c

/-- **Nothing to write, nothing changed**: the message and the communicator are what they were. -/
theorem stamped_of_unstamped (h : Unstamped conf m) (c : Comm B) :
    stamped conf m c = m ∧ (drawMid conf m c).2 = c := by
  unfold stamped
  rw [drawMid_of_not h.1, h.2]
  exact ⟨rfl, rfl⟩

/-- A message that comes back with its identifier and priority had nothing written into it. -/
theorem unstamped_of_eq (hid : (stamped conf m c).id = m.id) (hpriority : (stamped conf m c).priority = m.priority) :
    Unstamped conf m :=
  ⟨fun hdraw => drawMid_ne hdraw hid, hpriority⟩

/-! ## What a send that throws changes -/

theorem drawMid_queue : (drawMid conf m c).2.prepearedMQueue = c.prepearedMQueue := by
  rcases @drawMid_snd B conf m c with h | h
  · rw [h]
  · rw [h]
    rfl

/-- **A send fails** when there is no session or the encoder refuses the stamped message, and in no other case. -/
theorem result_error_iff : (∃ e, (c.prepareToWrite conf m).result = .error e)
    ↔ ¬ (c.userSession = true ∧ ∃ out, conf.messageEncoder.performEncode (stamped conf m c) = .ok out) := by
  rcases prepareToWrite_cases conf m c with ⟨e, h, hwhy⟩ | ⟨out, hs, hout, h⟩
  · rw [h]
    refine iff_of_true ⟨e, rfl⟩ ?_
    rintro ⟨hs, out, hout⟩
    rcases hwhy with hno | hrefused
    · exact absurd (hno.symm.trans hs) (by decide)
    · rw [hrefused] at hout
      cases hout
  · rw [h]
    refine iff_of_false ?_ (fun hno => hno ⟨hs, out, hout⟩)
    rintro ⟨e, he⟩
    cases he

/-- **The queue is as before**, whatever was written into the message. -/
theorem queue_of_error {e : Exc} (h : (c.prepareToWrite conf m).result = .error e) :
    (c.prepareToWrite conf m).comm.prepearedMQueue = c.prepearedMQueue := by
  rcases prepareToWrite_cases conf m c with ⟨e, hp, -⟩ | ⟨out, -, -, hp⟩
  · rw [hp]
    exact drawMid_queue
  · rw [hp] at h
    cases h

/-- With nothing to write a failed send leaves message and communicator alone. -/
theorem undone_of_unstamped {e : Exc} (hun : Unstamped conf m) (h : (c.prepareToWrite conf m).result = .error e) :
    Undone conf m c (c.prepareToWrite conf m) := by
  obtain ⟨hm, hc⟩ := stamped_of_unstamped hun c
  have hmessage : (c.prepareToWrite conf m).message = m := (prepareToWrite_message m c).trans hm
  have hcomm : (c.prepareToWrite conf m).comm = c := by
    rcases prepareToWrite_cases conf m c with ⟨e, hp, -⟩ | ⟨out, -, -, hp⟩
    · rw [hp]
      exact hc
    · rw [hp] at h
      cases h
  constructor
  · exact queue_of_error h
  · rw [hmessage]
  · rw [hmessage]
  · rw [hmessage, hcomm]
  · intro c'
    rw [hmessage]

/-- **When a send that throws changes nothing.** A failed call leaves the queue, the caller's message and every
    later send of it as if it had not been made if and only if it does not fail (there is a session, and the
    encoder takes the message with its identifier and priority), or nothing is written into the message. -/
theorem send_undone_iff (conf : Config B) (c : Comm B) (m : BinMessage B) :
    (∀ e, (c.prepareToWrite conf m).result = .error e → Undone conf m c (c.prepareToWrite conf m))
      ↔ (c.userSession = true ∧ ∃ out, conf.messageEncoder.performEncode (stamped conf m c) = .ok out)
        ∨ Unstamped conf m := by
  constructor
  · intro h
    by_contra hno
    rw [not_or] at hno
    obtain ⟨e, he⟩ := result_error_iff.mpr hno.1
    have hundone := h e he
    have hmessage : (c.prepareToWrite conf m).message = stamped conf m c := prepareToWrite_message m c
    apply hno.2
    exact unstamped_of_eq (hmessage ▸ hundone.id) (hmessage ▸ hundone.priority)
  · rintro (hok | hun) e he
    · exact absurd hok (result_error_iff.mp ⟨e, he⟩)
    · exact undone_of_unstamped hun he

/-- A message with a name of 250 bytes: without an identifier its header has 253 bytes, with one it has 261. -/
def nearLimit : BinMessage .lp64 := ⟨List.replicate 250 0x61, 0, 0, 0, []⟩

/-- **The identifier stays in the message** of a send that fails because of it. -/
theorem send_stamps : ¬ ∀ (conf : Config .lp64) (c : Comm .lp64) (m : BinMessage .lp64) (e : Exc),
    (c.prepareToWrite conf m).result = .error e → (c.prepareToWrite conf m).comm.prepearedMQueue = c.prepearedMQueue
      ∧ (c.prepareToWrite conf m).message.id = m.id ∧ (c.prepareToWrite conf m).message.priority = m.priority := by
  intro hclaim
  have h := hclaim Config.asking { create 0 with userSession := true } nearLimit
    (.rangeError "Can't serialize [Binary header too big]") (by decide +kernel)
  exact absurd h.2.1 (by decide +kernel)

end Unicomm.Comm
