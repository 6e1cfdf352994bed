import LanLink.Session.PeerPath
/-!
# Offers and answers agree

Two devices that offer, answer and lose messages in any order. What they send is
numbered in the order in which it arrives, so the one number that came through
last says which offers were seen; the rest is what each entry may be while
something is still under way.
-/
open LanLink.Lib

namespace LanLink.Session

/-! ## Numbers -/

abbrev number (x : P2P.CandidateExchange) : ℕ := x.generation.toNat

/-- The offer that is answered, or zero. -/
abbrev answered (x : P2P.CandidateExchange) : ℕ := x.responseToGeneration.toNat

namespace Peer

abbrev number (p : Peer) : ℕ := p.binding.localGeneration.toNat

abbrev peerNumber (p : Peer) : ℕ := p.binding.peerGeneration.toNat

abbrev answers (p : Peer) : ℕ := p.responseToGeneration.toNat

/-- The two entries are for the same exchange. -/
structure Matches (p q : Peer) : Prop where
  keyEpoch : p.binding.keyEpoch = q.binding.keyEpoch
  session : p.binding.localSession = q.binding.peerSession
  peerSession : p.binding.peerSession = q.binding.localSession
  generation : p.binding.localGeneration = q.binding.peerGeneration
  peerGeneration : p.binding.peerGeneration = q.binding.localGeneration

theorem Matches.symm {p q : Peer} (h : p.Matches q) : q.Matches p :=
  ⟨h.keyEpoch.symm, h.peerSession.symm, h.session.symm, h.peerGeneration.symm, h.generation.symm⟩

end Peer

/-! ## The invariant -/

/-- What an entry may be, given how many numbers were drawn, the last one that came through and what is under way. -/
structure Entry (drawn seen : ℕ) (way : List P2P.CandidateExchange) (e : Peer) : Prop where
  drawn_le : e.number ≤ drawn
  seen_le : seen ≤ e.number
  latest : ∀ x ∈ way, number x ≤ e.number
  unpublished : e.published = false → seen < e.number ∧ ∀ x ∈ way, number x < e.number
  stamped : ∀ x ∈ way, number x = e.number → x = e.exchange
  waiting : e.waitingForAnswer = true → e.peerNumber = 0 ∧ e.answers = 0
  completed : e.waitingForAnswer = false → 0 < e.peerNumber
  answering : e.answers ≠ 0 → e.waitingForAnswer = false ∧ e.peerNumber = e.answers
  offered : e.waitingForAnswer = false → e.answers = 0 → e.published = true

/-- One device and what it has under way, seen against the entry of the other device. -/
structure Half (own other : DeviceId) (s : PeerPath) (way : List P2P.CandidateExchange) (seen : ℕ) (s' : PeerPath) (seen' : ℕ) :
    Prop where
  sorted : way.Pairwise fun x y => number x < number y
  unseen : ∀ x ∈ way, seen < number x
  drawn : ∀ x ∈ way, number x ≤ s.generation.toNat
  seen_le : seen ≤ s.generation.toNat
  entry : ∀ e, s.peer = some e → Entry s.generation.toNat seen way e
  devices : ∀ e, s.peer = some e → e.binding.localDevice = own ∧ e.binding.peerDevice = other
  peerNumber : ∀ e, s.peer = some e → e.peerNumber ≤ seen'
  answered : ∀ x ∈ way, answered x ≤ seen'
  /-- A device that completed since it answered the offer the other one waits for is still at that answer. -/
  answer : ∀ x ∈ way, Session.answered x ≠ 0 → ∀ e, s.peer = some e → e.waitingForAnswer = false →
    ∀ e', s'.peer = some e' → e'.number = Session.answered x → e.number = number x ∧ e.peerNumber = Session.answered x
  /-- A device completes past an offer of its own only if that of the other one prevails. -/
  offer : ∀ x ∈ way, Session.answered x = 0 → ∀ e, s.peer = some e → e.waitingForAnswer = false →
    other < own ∧ ∀ e', s'.peer = some e' → e'.waitingForAnswer = true
  agree : ∀ e, s.peer = some e → e.waitingForAnswer = false → ∀ e', s'.peer = some e' → e'.waitingForAnswer = false → e.Matches e'

/-- Both devices. -/
structure Paired (own other : DeviceId) (s : PeerPath) (way : List P2P.CandidateExchange) (seen : ℕ) (s' : PeerPath)
    (way' : List P2P.CandidateExchange) (seen' : ℕ) : Prop where
  half : Half own other s way seen s' seen'
  half' : Half other own s' way' seen' s seen

section
variable {own other : DeviceId} {s s' : PeerPath} {way way' : List P2P.CandidateExchange} {seen seen' : ℕ}

theorem Paired.symm (h : Paired own other s way seen s' way' seen') : Paired other own s' way' seen' s way seen := ⟨h.half', h.half⟩

/-! ## What is lost -/

theorem Entry.sublist {drawn : ℕ} {e : Peer} (h : Entry drawn seen way e) {rest : List P2P.CandidateExchange} (hrest : rest.Sublist way) :
    Entry drawn seen rest e where
  drawn_le := h.drawn_le
  seen_le := h.seen_le
  latest x hx := h.latest x (hrest.subset hx)
  unpublished hp := ⟨(h.unpublished hp).1, fun x hx => (h.unpublished hp).2 x (hrest.subset hx)⟩
  stamped x hx := h.stamped x (hrest.subset hx)
  waiting := h.waiting
  completed := h.completed
  answering := h.answering
  offered := h.offered

theorem Half.sublist (h : Half own other s way seen s' seen') {rest : List P2P.CandidateExchange} (hrest : rest.Sublist way) :
    Half own other s rest seen s' seen' where
  sorted := h.sorted.sublist hrest
  unseen x hx := h.unseen x (hrest.subset hx)
  drawn x hx := h.drawn x (hrest.subset hx)
  seen_le := h.seen_le
  entry e he := (h.entry e he).sublist hrest
  devices := h.devices
  peerNumber := h.peerNumber
  answered x hx := h.answered x (hrest.subset hx)
  answer x hx := h.answer x (hrest.subset hx)
  offer x hx := h.offer x (hrest.subset hx)
  agree := h.agree

/-- Losing messages of one device. -/
theorem Paired.sublist (h : Paired own other s way seen s' way' seen') {rest : List P2P.CandidateExchange} (hrest : rest.Sublist way) :
    Paired own other s rest seen s' way' seen' :=
  ⟨h.half.sublist hrest, h.half'⟩

/-! ## What comes through -/

/-- The next message of the other device came through. -/
theorem Paired.taken {x : P2P.CandidateExchange} {rest : List P2P.CandidateExchange}
    (h : Paired own other s way seen s' (x :: rest) seen') : Paired own other s way seen s' rest (number x) := by
  have hhead := (List.pairwise_cons.1 h.half'.sorted).1
  have hseen := h.half'.unseen x (by simp)
  have htail := h.half'.sublist (List.sublist_cons_self x rest)
  refine ⟨{ h.half with peerNumber := ?_, answered := ?_ }, { htail with unseen := hhead, seen_le := ?_, entry := ?_ }⟩
  · exact fun e he => (h.half.peerNumber e he).trans hseen.le
  · exact fun y hy => (h.half.answered y hy).trans hseen.le
  · exact h.half'.drawn x (by simp)
  · intro e he
    have hentry := h.half'.entry e he
    refine { htail.entry e he with seen_le := hentry.latest x (by simp), unpublished := fun hp => ?_ }
    exact ⟨(hentry.unpublished hp).2 x (by simp), ((htail.entry e he).unpublished hp).2⟩

/-! ## New generations -/

/-- The device draws a number, and its entry, if there is one then, waits under that number. -/
theorem Paired.redraw (h : Paired own other s way seen s' way' seen') {t : PeerPath}
    (hdrawn : t.generation.toNat = s.generation.toNat + 1)
    (hpeer : ∀ e, t.peer = some e → e.number = s.generation.toNat + 1 ∧ e.published = false ∧ e.waitingForAnswer = true ∧
      e.peerNumber = 0 ∧ e.answers = 0 ∧ e.binding.localDevice = own ∧ e.binding.peerDevice = other) :
    Paired own other t way seen s' way' seen' := by
  constructor
  · constructor
    case sorted => exact h.half.sorted
    case unseen => exact h.half.unseen
    case drawn => exact fun x hx => (h.half.drawn x hx).trans (by omega)
    case seen_le => exact h.half.seen_le.trans (by omega)
    case entry =>
      intro e he
      obtain ⟨hnumber, hpublished, hwaiting, hzero, hanswers, -⟩ := hpeer e he
      have hseen := h.half.seen_le
      have hway : ∀ x ∈ way, number x < e.number := fun x hx => (h.half.drawn x hx).trans_lt (by omega)
      constructor
      case drawn_le => omega
      case seen_le => omega
      case latest => exact fun x hx => (hway x hx).le
      case unpublished => exact fun _ => ⟨by omega, hway⟩
      case stamped => exact fun x hx heq => absurd heq (hway x hx).ne
      case waiting => exact fun _ => ⟨hzero, hanswers⟩
      case completed => exact fun hdone => absurd (hwaiting.symm.trans hdone) (by decide)
      case answering => exact fun hne => absurd hanswers hne
      case offered => exact fun hdone => absurd (hwaiting.symm.trans hdone) (by decide)
    case devices => exact fun e he => (hpeer e he).2.2.2.2.2
    case peerNumber => exact fun e he => by rw [(hpeer e he).2.2.2.1]; exact Nat.zero_le _
    case answered => exact h.half.answered
    case answer => exact fun _ _ _ e he hdone => absurd ((hpeer e he).2.2.1.symm.trans hdone) (by decide)
    case offer => exact fun _ _ _ e he hdone => absurd ((hpeer e he).2.2.1.symm.trans hdone) (by decide)
    case agree => exact fun e he hdone => absurd ((hpeer e he).2.2.1.symm.trans hdone) (by decide)
  · refine { h.half' with answer := ?_, offer := ?_, agree := ?_ }
    · -- no answer under way is to the number just drawn
      intro x hx _ e _ _ e' he' heq
      have hle := (h.half'.answered x hx).trans h.half.seen_le
      have hnumber := (hpeer e' he').1
      omega
    · exact fun x hx hzero e he hdone => ⟨(h.half'.offer x hx hzero e he hdone).1, fun e' he' => (hpeer e' he').2.2.1⟩
    · exact fun _ _ _ e' he' hdone => absurd ((hpeer e' he').2.2.1.symm.trans hdone) (by decide)

/-- A number is drawn for someone else. -/
theorem Paired.draw (h : Paired own other s way seen s' way' seen') {t : PeerPath}
    (hdrawn : t.generation.toNat = s.generation.toNat + 1) (hpeer : t.peer = s.peer) : Paired own other t way seen s' way' seen' := by
  constructor
  · refine { sorted := h.half.sorted, unseen := h.half.unseen, drawn := ?_, seen_le := ?_, entry := ?_,
             devices := by rw [hpeer]; exact h.half.devices, peerNumber := by rw [hpeer]; exact h.half.peerNumber
             answered := h.half.answered, answer := by rw [hpeer]; exact h.half.answer, offer := by rw [hpeer]; exact h.half.offer
             agree := by rw [hpeer]; exact h.half.agree }
    · exact fun x hx => (h.half.drawn x hx).trans (by omega)
    · exact h.half.seen_le.trans (by omega)
    · intro e he
      rw [hpeer] at he
      exact { h.half.entry e he with drawn_le := (h.half.entry e he).drawn_le.trans (by omega) }
  · refine { h.half' with answer := ?_, offer := ?_, agree := ?_ }
    · rw [hpeer]
      exact h.half'.answer
    · rw [hpeer]
      exact h.half'.offer
    · rw [hpeer]
      exact h.half'.agree

/-- The entry is gone. -/
theorem Paired.remove (h : Paired own other s way seen s' way' seen') :
    Paired own other { s with peer := none } way seen s' way' seen' := by
  constructor
  · constructor
    case sorted => exact h.half.sorted
    case unseen => exact h.half.unseen
    case drawn => exact h.half.drawn
    case seen_le => exact h.half.seen_le
    case answered => exact h.half.answered
    all_goals simp
  · refine { h.half' with answer := by simp, offer := ?_, agree := by simp }
    exact fun x hx hzero e he hdone => ⟨(h.half'.offer x hx hzero e he hdone).1, by simp⟩

/-! ## Publications -/

/-- What is published comes after everything under way. -/
theorem Paired.publish (h : Paired own other s way seen s' way' seen') {e : Peer} (he : s.peer = some e) (hp : e.published = false) :
    Paired own other { s with peer := some { e with published := true } } (way ++ [e.exchange]) seen s' way' seen' := by
  have hentry := h.half.entry e he
  obtain ⟨hseen, hway⟩ := hentry.unpublished hp
  have hanswers : e.answers ≠ 0 → e.waitingForAnswer = false ∧ e.peerNumber = e.answers := hentry.answering
  constructor
  · constructor
    case sorted => exact List.pairwise_append.2 ⟨h.half.sorted, List.pairwise_singleton _ _, fun x hx y hy => List.mem_singleton.1 hy ▸ hway x hx⟩
    case unseen =>
      rintro x hx
      rcases List.mem_append.1 hx with hx | hx
      · exact h.half.unseen x hx
      · exact List.mem_singleton.1 hx ▸ hseen
    case drawn =>
      rintro x hx
      rcases List.mem_append.1 hx with hx | hx
      · exact h.half.drawn x hx
      · exact List.mem_singleton.1 hx ▸ hentry.drawn_le
    case seen_le => exact h.half.seen_le
    case entry =>
      rintro _ ⟨⟩
      constructor
      case drawn_le => exact hentry.drawn_le
      case seen_le => exact hentry.seen_le
      case latest =>
        intro x hx
        rcases List.mem_append.1 hx with hx | hx
        · exact hentry.latest x hx
        · exact List.mem_singleton.1 hx ▸ le_rfl
      case unpublished => exact fun hfalse => absurd hfalse (by simp)
      case stamped =>
        intro x hx heq
        rcases List.mem_append.1 hx with hx | hx
        · exact absurd heq (hway x hx).ne
        · exact List.mem_singleton.1 hx
      case waiting => exact hentry.waiting
      case completed => exact hentry.completed
      case answering => exact hentry.answering
      case offered => exact fun _ _ => rfl
    case devices =>
      rintro _ ⟨⟩
      exact h.half.devices e he
    case peerNumber =>
      rintro _ ⟨⟩
      exact h.half.peerNumber e he
    case answered =>
      rintro x hx
      rcases List.mem_append.1 hx with hx | hx
      · exact h.half.answered x hx
      · obtain rfl := List.mem_singleton.1 hx
        rcases Nat.eq_zero_or_pos e.answers with hzero | hpos
        · exact hzero.le.trans (Nat.zero_le _)
        · exact (hanswers hpos.ne').2.ge.trans (h.half.peerNumber e he)
    case answer =>
      rintro x hx hne _ ⟨⟩ hdone e' he' heq
      rcases List.mem_append.1 hx with hx | hx
      · exact h.half.answer x hx hne e he hdone e' he' heq
      · obtain rfl := List.mem_singleton.1 hx
        exact ⟨rfl, (hanswers hne).2⟩
    case offer =>
      rintro x hx hzero _ ⟨⟩ hdone
      rcases List.mem_append.1 hx with hx | hx
      · exact h.half.offer x hx hzero e he hdone
      · obtain rfl := List.mem_singleton.1 hx
        exact absurd (hp.symm.trans (hentry.offered hdone hzero)) (by decide)
    case agree =>
      rintro _ ⟨⟩ hdone e' he' hdone'
      obtain ⟨h₁, h₂, h₃, h₄, h₅⟩ := h.half.agree e he hdone e' he' hdone'
      exact ⟨h₁, h₂, h₃, h₄, h₅⟩
  · refine { h.half' with answer := ?_, offer := ?_, agree := ?_ }
    · rintro x hx hne e' he' hdone _ ⟨⟩ heq
      exact h.half'.answer x hx hne e' he' hdone e he heq
    · intro x hx hzero e' he' hdone
      obtain ⟨hlt, hwaits⟩ := h.half'.offer x hx hzero e' he' hdone
      refine ⟨hlt, ?_⟩
      rintro _ ⟨⟩
      exact hwaits e he
    · rintro e' he' hdone' _ ⟨⟩ hdone
      obtain ⟨h₁, h₂, h₃, h₄, h₅⟩ := h.half'.agree e' he' hdone' e he hdone
      exact ⟨h₁, h₂, h₃, h₄, h₅⟩

/-! ## Receipts -/

section
variable {x : P2P.CandidateExchange} {rest : List P2P.CandidateExchange} {e : Peer}

/-- While an offer comes in that this device accepts, the other one waits. -/
theorem Paired.waits (h : Paired own other s way seen s' (x :: rest) seen') (he : s.peer = some e)
    (hoffer : answered x = 0) (hyields : ¬ e.Prevails) : ∀ e', s'.peer = some e' → e'.waitingForAnswer = true := by
  intro e' he'
  by_contra hdone
  rw [Bool.not_eq_true] at hdone
  obtain ⟨hlt, hwaits⟩ := h.half'.offer x (by simp) hoffer e' he' hdone
  obtain ⟨hown, hother⟩ := h.half.devices e he
  exact hyields ⟨hwaits e he, by rwa [hown, hother]⟩

theorem Paired.acceptOffer (h : Paired own other s way seen s' (x :: rest) seen') (hne : own ≠ other) (he : s.peer = some e)
    (hoffer : answered x = 0) (hyields : ¬ e.Prevails) {g : UInt64} (hg : g.toNat = s.generation.toNat + 1)
    (gathered : List P2P.Candidate) :
    Paired own other { generation := g, peer := some (e.acceptOffer g gathered x) } way seen s' rest (number x) := by
  have hwaits := h.waits he hoffer hyields
  have hunseen := h.half'.unseen x (by simp)
  have hdevices := h.half.devices e he
  have hentry := h.half.entry e he
  have hseen := h.half.seen_le
  have hway : ∀ y ∈ way, number y < g.toNat := fun y hy => (h.half.drawn y hy).trans_lt (by omega)
  have htaken := h.taken
  constructor
  · constructor
    case sorted => exact h.half.sorted
    case unseen => exact h.half.unseen
    case drawn => exact fun y hy => (hway y hy).le
    case seen_le =>
      change seen ≤ g.toNat
      omega
    case entry =>
      rintro _ ⟨⟩
      constructor
      case drawn_le => exact le_rfl
      case seen_le =>
        change seen ≤ g.toNat
        omega
      case latest => exact fun y hy => (hway y hy).le
      case unpublished =>
        intro _
        refine ⟨?_, hway⟩
        change seen < g.toNat
        omega
      case stamped => exact fun y hy heq => absurd heq (hway y hy).ne
      case waiting => exact fun hfalse => absurd hfalse (by simp [Peer.acceptOffer])
      case completed => exact fun _ => (Nat.zero_le _).trans_lt hunseen
      case answering => exact fun _ => ⟨rfl, rfl⟩
      case offered => exact fun _ hzero => absurd hzero ((Nat.zero_le _).trans_lt hunseen).ne'
    case devices =>
      rintro _ ⟨⟩
      exact hdevices
    case peerNumber =>
      rintro _ ⟨⟩
      exact le_rfl
    case answered => exact htaken.half.answered
    case answer =>
      -- the other device has offered anew since its offer was answered
      rintro y hy _ _ ⟨⟩ _ e' he' heq
      have hle := h.half.answered y hy
      have hlatest := (h.half'.entry e' he').latest x (by simp)
      omega
    case offer =>
      rintro y hy hzero _ ⟨⟩ _
      refine ⟨?_, hwaits⟩
      by_cases hwaiting : e.waitingForAnswer = true
      · have hle : ¬ own < other := fun hlt => hyields ⟨hwaiting, by rwa [hdevices.1, hdevices.2]⟩
        exact BitVec.lt_of_le_ne (BitVec.not_lt.1 hle) hne.symm
      · rw [Bool.not_eq_true] at hwaiting
        exact (h.half.offer y hy hzero e he hwaiting).1
    case agree => exact fun _ _ _ e' he' hdone => absurd ((hwaits e' he').symm.trans hdone) (by decide)
  · refine { htaken.half' with answer := ?_, offer := ?_, agree := ?_ }
    · exact fun _ _ _ e' he' hdone => absurd ((hwaits e' he').symm.trans hdone) (by decide)
    · exact fun _ _ _ e' he' hdone => absurd ((hwaits e' he').symm.trans hdone) (by decide)
    · exact fun e' he' hdone => absurd ((hwaits e' he').symm.trans hdone) (by decide)

theorem Paired.acceptAnswer (h : Paired own other s way seen s' (x :: rest) seen') (he : s.peer = some e)
    (hanswer : answered x ≠ 0) (hawaits : e.Awaits x) (hadmits : ¬ e.Ignores x) :
    Paired own other { s with peer := some (e.acceptAnswer x) } way seen s' rest (number x) := by
  obtain ⟨hwaiting, hresponse⟩ := hawaits
  have hresponse : answered x = e.number := congrArg UInt64.toNat hresponse
  have hunseen := h.half'.unseen x (by simp)
  have hentry := h.half.entry e he
  have hback := h.half'.answered x (by simp)
  have hanswers := (hentry.waiting hwaiting).2
  -- its last offer came through, and nothing was published since
  have hway : way = [] := by
    refine List.eq_nil_iff_forall_not_mem.2 fun y hy => ?_
    have hlt := h.half.unseen y hy
    have hle := hentry.latest y hy
    omega
  have hpublished : e.published = true := by
    by_contra hnot
    have hlt := (hentry.unpublished (by simpa using hnot)).1
    omega
  have hlast : ∀ e', s'.peer = some e' → e'.waitingForAnswer = false → e'.number = number x ∧ e'.peerNumber = answered x :=
    fun e' he' hdone => h.half'.answer x (by simp) hanswer e' he' hdone e he hresponse.symm
  have hmatches : ∀ e', s'.peer = some e' → e'.waitingForAnswer = false → (e.acceptAnswer x).Matches e' := by
    intro e' he' hdone
    obtain ⟨hnumber, hpeer⟩ := hlast e' he' hdone
    have hstamp := (h.half'.entry e' he').stamped x (by simp) hnumber.symm
    simp only [Peer.Ignores, not_or, not_not] at hadmits
    obtain ⟨-, hsession, hown, hepoch, -⟩ := hadmits
    rw [hstamp] at hsession hown hepoch
    exact ⟨hepoch.symm, hown.symm, hsession.symm, UInt64.toNat_inj.1 (hresponse.symm.trans hpeer.symm), UInt64.toNat_inj.1 hnumber.symm⟩
  have htaken := h.taken
  subst hway
  constructor
  · constructor
    case sorted => exact .nil
    case seen_le => exact h.half.seen_le
    case entry =>
      rintro _ ⟨⟩
      constructor
      case drawn_le => exact hentry.drawn_le
      case seen_le => exact hentry.seen_le
      case unpublished => exact fun hfalse => absurd (hfalse.symm.trans hpublished) (by decide)
      case waiting => exact fun hfalse => absurd hfalse (by simp [Peer.acceptAnswer])
      case completed => exact fun _ => (Nat.zero_le _).trans_lt hunseen
      case answering => exact fun hne => absurd hanswers hne
      case offered => exact fun _ _ => hpublished
      all_goals simp
    case devices =>
      rintro _ ⟨⟩
      exact h.half.devices e he
    case peerNumber =>
      rintro _ ⟨⟩
      exact le_rfl
    case agree =>
      rintro _ ⟨⟩ _
      exact hmatches
    all_goals simp
  · refine { htaken.half' with answer := ?_, offer := ?_, agree := ?_ }
    · rintro y hy hne e' he' hdone _ ⟨⟩ heq
      exact h.half'.answer y (List.mem_cons_of_mem x hy) hne e' he' hdone e he heq
    · intro y hy _ e' he' hdone
      -- the other device would have published past the answer it is still at
      have hlt := (List.pairwise_cons.1 h.half'.sorted).1 y hy
      have hle := (h.half'.entry e' he').latest y (List.mem_cons_of_mem x hy)
      have hnumber := (hlast e' he' hdone).1
      omega
    · rintro e' he' hdone _ ⟨⟩ _
      exact (hmatches e' he' hdone).symm

end

end

/-! ## The two devices -/

@[simp] theorem Side.other_other (p : Side) : p.other.other = p := by cases p <;> rfl

@[simp] theorem Side.other_ne (p : Side) : p.other ≠ p := by cases p <;> decide

@[simp] theorem Side.ne_other (p : Side) : p ≠ p.other := by cases p <;> decide

theorem Pair.ne (P : Pair) (p : Side) : P.device p ≠ P.device p.other := by
  cases p
  · exact P.distinct
  · exact P.distinct.symm

namespace World
variable {P : Pair} {w : World}

/-- What a device has under way, in the order in which it comes to the other one. -/
def way (w : World) (p : Side) : List P2P.CandidateExchange := w.forwarded p ++ w.sent p

/-- Seen from one of the devices. -/
def InvAt (P : Pair) (w : World) (p : Side) (seen seen' : ℕ) : Prop :=
  Paired (P.device p) (P.device p.other) (w.path p) (w.way p) seen (w.path p.other) (w.way p.other) seen'

def Inv (P : Pair) (w : World) : Prop := ∃ seen seen', w.InvAt P .first seen seen'

theorem Inv.at (h : w.Inv P) (p : Side) : ∃ seen seen', w.InvAt P p seen seen' := by
  obtain ⟨seen, seen', h⟩ := h
  cases p
  · exact ⟨seen, seen', h⟩
  · exact ⟨seen', seen, h.symm⟩

theorem InvAt.inv {p : Side} {seen seen' : ℕ} (h : w.InvAt P p seen seen') : w.Inv P := by
  cases p
  · exact ⟨seen, seen', h⟩
  · exact ⟨seen', seen, h.symm⟩

/-- A step that concerns one device. -/
theorem inv_of {w' : World} {p : Side} {seen seen' : ℕ} {s : PeerPath} {l l' : List P2P.CandidateExchange}
    (h : Paired (P.device p) (P.device p.other) s l seen (w.path p.other) l' seen') (hpath : w'.path p = s)
    (hother : w'.path p.other = w.path p.other) (hway : w'.way p = l) (hway' : w'.way p.other = l') : w'.Inv P := by
  have hat : w'.InvAt P p seen seen' := by
    rw [InvAt, hpath, hother, hway, hway']
    exact h
  exact hat.inv

/-- A step that loses something at most. -/
theorem Inv.lose (h : w.Inv P) {w' : World} (hpath : w'.path = w.path) (p : Side) (hway : (w'.way p).Sublist (w.way p))
    (hother : w'.way p.other = w.way p.other) : w'.Inv P := by
  obtain ⟨seen, seen', h⟩ := h.at p
  exact inv_of (h.sublist hway) (by rw [hpath]) (by rw [hpath]) rfl hother

/-- A step that changes the entry of one device. -/
theorem inv_setPath {p : Side} {s : PeerPath} {seen seen' : ℕ}
    (h : Paired (P.device p) (P.device p.other) s (w.way p) seen (w.path p.other) (w.way p.other) seen') : (w.setPath p s).Inv P :=
  inv_of h (Function.update_self _ _ _) (Function.update_of_ne p.other_ne _ _) rfl rfl

theorem toNat_succ {g : UInt64} (h : g ≠ 0xffffffffffffffff) : (g + 1).toNat = g.toNat + 1 := by
  have hne : g.toNat ≠ 0xffffffffffffffff := fun heq => h (UInt64.toNat_inj.1 heq)
  have hlt := g.toNat_lt
  rw [UInt64.toNat_add]
  change (g.toNat + 1) % 2 ^ 64 = _
  omega

theorem Inv.receive (h : w.Inv P) {p : Side} {x : P2P.CandidateExchange} {rest : List P2P.CandidateExchange}
    (hx : w.forwarded p.other = x :: rest) (hu : w.ReceiptDraws p → (w.path p).generation ≠ 0xffffffffffffffff)
    (gathered : List P2P.Candidate) :
    Inv P { w.setPath p ((w.path p).receive x gathered) with forwarded := Function.update w.forwarded p.other rest } := by
  obtain ⟨seen, seen', h⟩ := h.at p
  have hway : w.way p.other = x :: (rest ++ w.sent p.other) := by rw [way, hx, List.cons_append]
  rw [InvAt, hway] at h
  suffices hs : ∃ seen seen', Paired (P.device p) (P.device p.other) ((w.path p).receive x gathered) (w.way p) seen (w.path p.other)
      (rest ++ w.sent p.other) seen' by
    obtain ⟨seen, seen', hs⟩ := hs
    refine inv_of hs (Function.update_self _ _ _) (Function.update_of_ne p.other_ne _ _) ?_ ?_
    · simp [way, setPath]
    · simp [way, setPath]
  refine ⟨seen, number x, ?_⟩
  unfold PeerPath.receive
  cases he : (w.path p).peer with
  | none => exact h.taken
  | some e =>
    dsimp only
    have hdraws (hadmits : ¬ e.Ignores x) (hoffer : x.responseToGeneration = 0) (hfree : e.Prevails → e.published = true) :
        ((w.path p).generation + 1).toNat = (w.path p).generation.toNat + 1 :=
      toNat_succ (hu ⟨x, by rw [hx]; rfl, e, he, hadmits, hoffer, hfree⟩)
    by_cases hignores : e.Ignores x
    · rw [if_pos hignores]
      exact h.taken
    rw [if_neg hignores]
    by_cases hoffer : x.responseToGeneration = 0
    · rw [if_pos hoffer]
      by_cases hprevails : e.Prevails
      · rw [if_pos hprevails]
        by_cases hpublished : e.published = true
        · have hzero := (h.half.entry e he).waiting hprevails.1
          have hdevices := h.half.devices e he
          rw [if_pos hpublished]
          refine h.taken.redraw (hdraws hignores hoffer fun _ => hpublished) ?_
          rintro _ ⟨⟩
          exact ⟨hdraws hignores hoffer fun _ => hpublished, rfl, hprevails.1, hzero.1, hzero.2, hdevices⟩
        · rw [if_neg hpublished]
          exact h.taken
      · rw [if_neg hprevails]
        exact h.acceptOffer (P.ne p) he (congrArg UInt64.toNat hoffer) hprevails
          (hdraws hignores hoffer fun hpre => absurd hpre hprevails) gathered
    · rw [if_neg hoffer]
      by_cases hawaits : e.Awaits x
      · rw [if_pos hawaits]
        exact h.acceptAnswer he (fun hzero => hoffer (UInt64.toNat_inj.1 hzero)) hawaits hignores
      · rw [if_neg hawaits]
        exact h.taken

theorem Inv.relay (h : w.Inv P) (p : Side) : (w.relay p).Inv P := by
  unfold World.relay
  split
  · exact h
  · rename_i x rest hsent
    split
    · refine h.lose rfl p ?_ ?_
      · simp [way, hsent]
      · simp [way]
    · refine h.lose rfl p ?_ ?_
      · simp [way, hsent]
      · simp [way]

/-- Every event keeps the invariant, unless a generation wraps. -/
theorem Inv.step (h : w.Inv P) {event : Event} (hu : w.Unwrapped event) : (w.step P event).Inv P := by
  cases event with
  | create p keyEpoch localSession peerSession gathered =>
    obtain ⟨seen, seen', h⟩ := h.at p
    apply inv_setPath
    case h =>
      unfold PeerPath.create
      cases he : (w.path p).peer with
      | some e => exact h
      | none =>
        have hdrawn := toNat_succ (hu he)
        refine h.redraw hdrawn ?_
        rintro _ ⟨⟩
        exact ⟨hdrawn, rfl, rfl, rfl, rfl, rfl, rfl⟩
  | remove p =>
    obtain ⟨seen, seen', h⟩ := h.at p
    exact inv_setPath h.remove
  | revalidate p gathered =>
    obtain ⟨seen, seen', h⟩ := h.at p
    apply inv_setPath
    case h =>
      unfold PeerPath.revalidate
      cases he : (w.path p).peer with
      | none => exact h
      | some e =>
        have hdrawn := toNat_succ (hu (by simp [Draws, he]))
        have hdevices := h.half.devices e he
        refine h.redraw hdrawn ?_
        rintro _ ⟨⟩
        exact ⟨hdrawn, rfl, rfl, rfl, rfl, hdevices⟩
  | draw p =>
    obtain ⟨seen, seen', h⟩ := h.at p
    exact inv_setPath (h.draw (toNat_succ (hu trivial)) rfl)
  | publish p =>
    obtain ⟨seen, seen', h'⟩ := h.at p
    simp only [World.step]
    split
    · exact h
    · rename_i x hoffer
      simp only [PeerPath.offer, Option.bind_eq_some_iff, Option.ite_none_right_eq_some, Option.some.injEq] at hoffer
      obtain ⟨e, he, ⟨hpublished, -, -⟩, rfl⟩ := hoffer
      refine inv_of (h'.publish he hpublished) ?_ (Function.update_of_ne p.other_ne _ _) ?_ ?_
      · simp [setPath, PeerPath.published, he]
      · simp [way, setPath]
      · simp [way, setPath]
  | forward p => exact h.relay p
  | forget p => exact h.lose rfl p (List.Sublist.refl _) rfl
  | loseSent p i =>
    refine h.lose rfl p ?_ ?_
    · simpa [way, World.step] using List.eraseIdx_sublist _ _
    · simp [way, World.step]
  | loseForwarded p i =>
    refine h.lose rfl p ?_ ?_
    · simpa [way, World.step] using List.eraseIdx_sublist _ _
    · simp [way, World.step]
  | deliver p gathered =>
    simp only [World.step]
    split
    · exact h
    · rename_i x rest hx
      exact h.receive hx hu gathered

theorem inv_initial : Inv P {} := by
  refine ⟨0, 0, ?_, ?_⟩
  all_goals
    constructor
    all_goals simp [way]

end World

/-! ## Agreement -/

/-- Completed entries are for the same exchange. -/
def World.Agrees (w : World) : Prop :=
  ∀ p e e', (w.path p).peer = some e → (w.path p.other).peer = some e' → e.Completed → e'.Completed → e.Matches e'

theorem World.Inv.agrees {P : Pair} {w : World} (h : w.Inv P) : w.Agrees := by
  intro p e e' he he' hdone hdone'
  obtain ⟨seen, seen', h⟩ := h.at p
  exact h.half.agree e he hdone.1 e' he' hdone'.1

/-- In every run in which no generation wraps, entries that are both completed agree. -/
theorem generations_agree (P : Pair) (events : ℕ → Event) (h : ∀ k, (World.run P events k).Unwrapped (events k)) (k : ℕ) :
    (World.run P events k).Agrees := by
  have hinv : (World.run P events k).Inv P :=
    states_inv (World.Inv P) World.Unwrapped World.inv_initial (fun _ _ hu hi => hi.step hu) h k
  exact hinv.agrees

def samplePair : Pair where
  network := 8
  device
    | .first => 1
    | .second => 2
  distinct := by decide

def sampleCandidates : List P2P.Candidate := [{ endpoint := { ipv4 := 0x0a000001, port := 4000 }, priority := 1 }]

/-- The first device offers, the second one answers. -/
def answeredRun : ℕ → Event
  | 0 => .create .first 5 101 102 sampleCandidates
  | 1 => .create .second 5 102 101 sampleCandidates
  | 2 => .publish .first
  | 3 => .forward .first
  | 4 => .deliver .second sampleCandidates
  | 5 => .publish .second
  | 6 => .forward .second
  | 7 => .deliver .first sampleCandidates
  | _ => .forget .first

/-- Neither of both devices is without a completed entry. -/
def World.bothCompleted (w : World) : Bool :=
  (w.path .first).peer.any (decide <| Peer.Completed ·) && (w.path .second).peer.any (decide <| Peer.Completed ·)

theorem generations_agree_answered : (World.run samplePair answeredRun 8).bothCompleted = true ∧
    (World.run samplePair answeredRun 8).Agrees := by
  refine ⟨by decide +kernel, generations_agree samplePair answeredRun ?_ 8⟩
  intro k hdraws
  match k with
  | 0 | 1 | 2 | 3 | 4 | 5 | 6 | 7 => decide +kernel
  | k + 8 => exact hdraws.elim

/-- The first device offers twice and is answered twice, and takes neither answer. -/
def offeredRun : ℕ → Event
  | 0 => .create .first 5 101 102 sampleCandidates
  | 1 => .create .second 5 102 101 sampleCandidates
  | 4 | 10 => .deliver .second sampleCandidates
  | 5 => .publish .second
  | 6 => .forward .second
  | 7 => .revalidate .first sampleCandidates
  | 2 | 8 => .publish .first
  | _ => .forward .first

/-- How many generations it draws then, to be back at zero. -/
def wrap : ℕ := 2 ^ 64 - 2

/-- It offers again under its first generation, which the first answer is to. -/
def wrappedRun (k : ℕ) : Event :=
  if k < 11 then offeredRun k
  else if k < 11 + wrap then .draw .first
  else if k = 11 + wrap then .revalidate .first sampleCandidates
  else .deliver .first sampleCandidates

theorem iterate_draw (P : Pair) (w : World) (p : Side) (n : ℕ) :
    (fun w => w.step P (.draw p))^[n] w = w.setPath p { w.path p with generation := (w.path p).generation + UInt64.ofNat n } := by
  induction n with
  | zero => simp [World.setPath]
  | succ n ih =>
    rw [Function.iterate_succ_apply', ih]
    simp [World.step, World.setPath, UInt64.add_assoc]

theorem run_succ (P : Pair) (events : ℕ → Event) (k : ℕ) : World.run P events (k + 1) = (World.run P events k).step P (events k) := rfl

/-- The state in which the old answer comes in. -/
def wrappedWorld : World :=
  let w := World.run samplePair offeredRun 11
  (w.setPath .first { w.path .first with generation := (w.path .first).generation + UInt64.ofNat wrap }).step samplePair
    (.revalidate .first sampleCandidates)

theorem run_wrappedRun : World.run samplePair wrappedRun (11 + wrap + 1) = wrappedWorld := by
  have hoffered : World.run samplePair wrappedRun 11 = World.run samplePair offeredRun 11 := by
    refine states_congr fun k hk => ?_
    rw [wrappedRun, if_pos hk]
  have hdrawn : World.run samplePair wrappedRun (11 + wrap) =
      (fun w => w.step samplePair (.draw .first))^[wrap] (World.run samplePair wrappedRun 11) := by
    refine states_iterate 11 fun k hlow hhigh => ?_
    rw [wrappedRun, if_neg (by omega), if_pos hhigh]
  rw [run_succ, hdrawn, hoffered, iterate_draw, wrappedRun, if_neg (by omega), if_neg (by omega), if_pos rfl, wrappedWorld]

/-- A wrapped generation takes an old answer for one to the last offer. -/
theorem generations_disagree : ¬ ∀ (P : Pair) (events : ℕ → Event) (k : ℕ), (World.run P events k).Agrees := by
  intro h
  have hagrees := h samplePair wrappedRun (11 + wrap + 1 + 1)
  rw [run_succ, run_wrappedRun, wrappedRun, if_neg (by omega), if_neg (by omega), if_neg (by omega)] at hagrees
  have hfirst : ((wrappedWorld.step samplePair (.deliver .first sampleCandidates)).path .first).peer.any
      (fun e => e.Completed ∧ e.binding.peerGeneration = 2) = true := by
    decide +kernel
  have hsecond : ((wrappedWorld.step samplePair (.deliver .first sampleCandidates)).path .second).peer.any
      (fun e => e.Completed ∧ e.binding.localGeneration = 3) = true := by
    decide +kernel
  obtain ⟨e, he, hdone⟩ := (Option.any_eq_true _ _).1 hfirst
  obtain ⟨e', he', hdone'⟩ := (Option.any_eq_true _ _).1 hsecond
  rw [decide_eq_true_eq] at hdone hdone'
  have hpeer := (hagrees .first e e' he he' hdone.1 hdone'.1).peerGeneration
  rw [hdone.2, hdone'.2] at hpeer
  exact absurd hpeer (by decide)

end LanLink.Session
