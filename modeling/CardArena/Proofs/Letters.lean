import Mathlib
import CardArena.Proofs.Steady

/-!
# What is sent

What has been sent stays sent: a step adds letters to the outbox and takes none back.  Within a turn
these are news of cards, which are told to everybody, and questions, which a cascade puts to the active
player only.  Of all messages only one says that a card is destroyed, and within a turn nobody says it;
the match says it between turns, when it clears the table.

* `Change.posts`, `Calm.posts` : within a turn letters are added, and these are news and questions.
* `Match.farewells` : the letters about the destruction of one card, by which a destruction can be
  counted.
-/

namespace CardArena

open Relation (ReflTransGen)

/-! ## Kinds of messages -/

namespace Message

/-- The message tells what a cascade does to the cards in play, or shows the table meanwhile. -/
def isNews : Message → Bool
  | .cardSpawned .. => true
  | .cardKilled _ => true
  | .cardTransformed .. => true
  | .stateUpdated _ => true
  | _ => false

/-- The message asks a player for something. -/
def isQuestion : Message → Bool
  | .selectTarget .. => true
  | .selectDiscard _ => true
  | _ => false

/-- Neither news nor a question says that a card is destroyed. -/
theorem isFarewell_of_calm {message : Message}
    (h : message.isNews = true ∨ message.isQuestion = true) : message.isFarewell = false := by
  cases message <;> first | rfl | simp [isNews, isQuestion] at h

end Message

/-! ## Letters -/

/-- Letters have been sent in between, and all of them are of a kind. -/
def Match.Posts (kind : Message → Prop) (m m' : Match) : Prop :=
  ∃ mail, m'.outbox.toList = m.outbox.toList ++ mail ∧ ∀ letter ∈ mail, kind letter.2

/-- Letters have been sent in between, and none of them is a farewell. -/
abbrev Match.Sends (m m' : Match) : Prop :=
  m.Posts (fun message => message.isFarewell = false) m'

/-- The letters of a kind. -/
def Match.letters (m : Match) (kind : Message → Bool) : List (ConnectionId × Message) :=
  m.outbox.toList.filter (kind ·.2)

/-- The letters about the destruction of a card. -/
def Match.farewells (m : Match) (card : LiveId) : List (ConnectionId × Message) :=
  m.outbox.toList.filter (·.2 = .cardDestroyed card)

namespace Match

variable {m m' m'' : Match} {kind kind' : Message → Prop}

theorem toList_post (m : Match) (mail : List (ConnectionId × Message)) :
    (m.post mail).outbox.toList = m.outbox.toList ++ mail := by
  simp [post]

namespace Posts

theorem of_eq (h : m'.outbox = m.outbox) : m.Posts kind m' :=
  ⟨[], by rw [h, List.append_nil], nofun⟩

theorem refl (m : Match) : m.Posts kind m :=
  of_eq rfl

theorem trans (h : m.Posts kind m') (h' : m'.Posts kind m'') : m.Posts kind m'' := by
  obtain ⟨mail, heq, hkind⟩ := h
  obtain ⟨mail', heq', hkind'⟩ := h'
  refine ⟨mail ++ mail', by rw [heq', heq, List.append_assoc], fun letter hletter => ?_⟩
  rcases List.mem_append.mp hletter with hold | hnew
  · exact hkind letter hold
  · exact hkind' letter hnew

theorem mono (h : m.Posts kind m') (hkind : ∀ message, kind message → kind' message) :
    m.Posts kind' m' := by
  obtain ⟨mail, heq, hmail⟩ := h
  exact ⟨mail, heq, fun letter hletter => hkind _ (hmail letter hletter)⟩

/-- What each of many moves posts, all of them post. -/
theorem chain {r : Match → Match → Prop} (hr : ∀ a b, r a b → a.Posts kind b)
    (h : ReflTransGen r m m') : m.Posts kind m' := by
  induction h with
  | refl => exact .refl m
  | tail _ hstep ih => exact ih.trans (hr _ _ hstep)

theorem post (h : m.Posts kind m') {mail : List (ConnectionId × Message)}
    (hkind : ∀ letter ∈ mail, kind letter.2) : m.Posts kind (m'.post mail) :=
  h.trans ⟨mail, toList_post m' mail, hkind⟩

theorem tell (h : m.Posts kind m') (player : PlayerId) {message : Message}
    (hkind : kind message) : m.Posts kind (m'.tell player message) := by
  rw [tell_eq_post]
  refine h.post fun letter hletter => ?_
  obtain ⟨seat, -, rfl⟩ := List.mem_map.mp hletter
  exact hkind

theorem broadcast (h : m.Posts kind m') {message : Message} (hkind : kind message) :
    m.Posts kind (m'.broadcast message) := by
  refine h.post fun letter hletter => ?_
  obtain ⟨seat, -, rfl⟩ := List.mem_map.mp hletter
  exact hkind

theorem broadcastViews (h : m.Posts kind m') {message : Snapshot → Message}
    (hkind : ∀ view, kind (message view)) : m.Posts kind (m'.broadcastViews message) := by
  refine h.post fun letter hletter => ?_
  obtain ⟨seat, -, rfl⟩ := List.mem_map.mp hletter
  exact hkind _

/-- What has been sent stays sent. -/
theorem mem (h : m.Posts kind m') {letter : ConnectionId × Message} (hletter : letter ∈ m.outbox) :
    letter ∈ m'.outbox := by
  obtain ⟨mail, heq, -⟩ := h
  rw [← Array.mem_toList_iff, heq]
  exact List.mem_append_left _ (Array.mem_toList_iff.mpr hletter)

/-- Of other letters there are no more. -/
theorem letters (h : m.Posts kind m') {other : Message → Bool}
    (hother : ∀ message, kind message → other message = false) :
    m'.letters other = m.letters other := by
  obtain ⟨mail, heq, hmail⟩ := h
  have hnone : mail.filter (other ·.2) = [] := by
    refine List.filter_eq_nil_iff.mpr fun letter hletter => ?_
    simp [hother _ (hmail letter hletter)]
  rw [Match.letters, heq, List.filter_append, hnone, List.append_nil]
  rfl

end Posts

theorem Sends.farewells (h : m.Sends m') (card : LiveId) : m'.farewells card = m.farewells card := by
  have hother : ∀ message : Message, message.isFarewell = false →
      decide (message = .cardDestroyed card) = false := by
    intro message hquiet
    refine decide_eq_false ?_
    rintro rfl
    cases hquiet
  exact h.letters hother

end Match

variable {rules : Rulebook} {scope : Scope} {m m' : Match}

open Match (Posts)

/-- **A cascade tells news, and asks the active player if anybody.** -/
theorem Change.posts (h : Change rules scope m m') :
    m.Posts (fun message => message.isNews = true ∨
      message.isQuestion = true ∧ ∃ player, m.table.activePlayer? = some player) m' := by
  cases h with
  | ask _ active =>
      refine Posts.tell ?_ _ (.inr ⟨rfl, _, active⟩)
      exact .of_eq rfl
  | bring | deploy | condemn | replace =>
      refine Posts.broadcast ?_ (.inl rfl)
      exact .of_eq rfl
  | reveal => exact (Posts.refl m).broadcastViews fun _ => .inl rfl
  | _ => exact .of_eq rfl

/-- **Whatever is done within a turn tells news and asks questions only.** -/
theorem Calm.posts (h : Calm rules scope m m') :
    m.Posts (fun message => message.isNews = true ∨ message.isQuestion = true) m' := by
  cases h with
  | change h => exact h.posts.mono fun _ => Or.imp_right And.left
  | repeatQuestion | demand => exact (Posts.refl m).tell _ (.inr rfl)
  | discard hzone held =>
      rw [Match.discardCard_eq hzone held]
      exact .of_eq rfl
  | shuffle player zone =>
      rcases m.shuffleZone_eq player zone with heq | ⟨z, dice, -, heq⟩ <;> rw [heq]
      · exact .refl m
      · exact .of_eq rfl
  | owe =>
      refine Posts.tell ?_ _ (.inr rfl)
      exact .of_eq rfl
  | _ => exact .of_eq rfl

theorem Calm.sends (h : Calm rules scope m m') : m.Sends m' :=
  h.posts.mono fun _ => Message.isFarewell_of_calm

theorem Change.sends (h : Change rules scope m m') : m.Sends m' :=
  Calm.sends (.change h)

end CardArena
