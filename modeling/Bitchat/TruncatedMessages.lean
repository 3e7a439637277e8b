import Bitchat.HexAcceptance

/-!
# Messages that are cut off

A payload that ends inside an optional field is read on from behind the length byte of that
field, as whatever fields come next. To say which field a byte belongs to, the optional fields
are written with a mark on every byte and read over marked bytes; erasing the marks gives what
the parser does. The fields of a truncated message are mixed up unless the bytes that are
left of the field that is cut are blank: read as the next fields, they fill none of them.
-/

namespace Bitchat.PacketSerializer

open ByteCursor StringHelper

inductive Part where
  | originalSender
  | recipientNickname
  | senderPeerID
  | mentions
  | channel
  deriving DecidableEq, Repr

abbrev Marked := UInt8 × Part

def mark (part : Part) (s : Bytes) : List Marked := s.map fun b => (b, part)

def unmark (s : List Marked) : Bytes := s.map Prod.fst

/-- The optional fields as they are written, each byte with the field that it belongs to. -/
def markedSection (message : BitchatMessage) : List Marked :=
  mark .originalSender (optionalBytes message.originalSender) ++
    (mark .recipientNickname (optionalBytes message.recipientNickname) ++
      (mark .senderPeerID (optionalBytes (toHex message.senderPeerID)) ++
        (mark .mentions (mentionsBytes message.mentions) ++
          mark .channel (optionalBytes message.channel))))

@[simp] theorem unmark_mark (part : Part) (s : Bytes) : unmark (mark part s) = s := by
  rw [unmark, mark, List.map_map]
  exact List.map_id s

@[simp] theorem length_mark (part : Part) (s : Bytes) : (mark part s).length = s.length :=
  List.length_map _

theorem snd_of_mem_mark {part : Part} {s : Bytes} {b : Marked} (h : b ∈ mark part s) :
    b.2 = part := by
  obtain ⟨c, -, rfl⟩ := List.mem_map.mp h
  rfl

theorem unmark_append (s t : List Marked) : unmark (s ++ t) = unmark s ++ unmark t :=
  List.map_append

theorem unmark_take (n : ℕ) (s : List Marked) : unmark (s.take n) = (unmark s).take n :=
  List.map_take

theorem unmark_drop (n : ℕ) (s : List Marked) : unmark (s.drop n) = (unmark s).drop n :=
  List.map_drop

theorem forall_unmark_cons_iff {p : UInt8 → Bytes → Prop} (n : Marked) (s : List Marked) :
    (∀ m t, unmark (n :: s) = m :: t → p m t) ↔ p n.1 (unmark s) := by
  constructor
  · intro h
    exact h _ _ rfl
  · intro h m t ht
    obtain ⟨rfl, rfl⟩ := List.cons.inj ht
    exact h

theorem unmark_markedSection (message : BitchatMessage) :
    unmark (markedSection message) = optionalSection message := by
  simp only [markedSection, optionalSection, unmark_append, unmark_mark]

theorem takeField_unmark (s : List Marked) :
    takeField id (unmark s) =
      ((takeField Prod.fst s).1.map unmark, unmark (takeField Prod.fst s).2) := by
  cases s with
  | nil => rfl
  | cons n s =>
      rw [takeField, unmark, List.map_cons, takeField]
      simp only [id, List.length_map]
      split_ifs
      · rw [← List.map_take, ← List.map_drop]
        rfl
      · rfl

theorem takeFields_unmark (n : ℕ) (s : List Marked) :
    takeFields id n (unmark s) =
      ((takeFields Prod.fst n s).1.map unmark, unmark (takeFields Prod.fst n s).2) := by
  induction n generalizing s with
  | zero => rfl
  | succ n ih =>
      rw [takeFields, takeFields, takeField_unmark]
      dsimp only
      rw [ih]
      cases (takeField Prod.fst s).1 with
      | none => rfl
      | some v => rfl

theorem takeOptional_unmark (present : Bool) (s : List Marked) :
    takeOptional id present (unmark s) =
      (unmark (takeOptional Prod.fst present s).1, unmark (takeOptional Prod.fst present s).2) := by
  rw [takeOptional, takeOptional, takeField_unmark]
  cases present with
  | false => rfl
  | true =>
      cases (takeField Prod.fst s).1 with
      | none => rfl
      | some v => rfl

theorem takeMentions_unmark (present : Bool) (s : List Marked) :
    takeMentions id present (unmark s) =
      ((takeMentions Prod.fst present s).1.map unmark,
        unmark (takeMentions Prod.fst present s).2) := by
  cases present with
  | false => rfl
  | true =>
      cases s with
      | nil => rfl
      | cons n s => exact takeFields_unmark n.1.toNat s

def Optionals.erase (fields : Optionals Marked) : Optionals UInt8 where
  originalSender := unmark fields.originalSender
  recipientNickname := unmark fields.recipientNickname
  peerIDHex := unmark fields.peerIDHex
  mentions := fields.mentions.map unmark
  channel := unmark fields.channel

theorem takeOptionals_unmark (flags : UInt8) (s : List Marked) :
    takeOptionals id flags (unmark s) = (takeOptionals Prod.fst flags s).erase := by
  simp only [takeOptionals, takeOptional_unmark, takeMentions_unmark, Optionals.erase]

/-- Read as a field, these bytes give nothing or the empty string. -/
def Blank (s : Bytes) : Prop := ∀ n t, s = n :: t → n = 0 ∨ t.length < n.toNat

/-- Read as a field, these bytes give nothing. -/
def TooShort (s : Bytes) : Prop := ∀ n t, s = n :: t → t.length < n.toNat

theorem takeField_of_tooShort {s : List Marked} (h : TooShort (unmark s)) :
    takeField Prod.fst s = (none, s.drop 1) := by
  cases s with
  | nil => rfl
  | cons n s =>
      have hlong := h n.1 (unmark s) rfl
      rw [unmark, List.length_map] at hlong
      rw [takeField, if_neg (by omega)]
      rfl

theorem takeField_of_room {n : Marked} {s : List Marked} (h : n.1.toNat ≤ s.length) :
    takeField Prod.fst (n :: s) = (some (s.take n.1.toNat), s.drop n.1.toNat) := if_pos h

theorem takeField_of_zero {n : Marked} {s : List Marked} (h : n.1 = 0) :
    takeField Prod.fst (n :: s) = (some [], s) := by
  rw [takeField_of_room (by rw [h]; exact Nat.zero_le _), h]
  rfl

theorem not_tooShort {n : Marked} {s : List Marked} (h : ¬ TooShort (unmark (n :: s))) :
    n.1.toNat ≤ s.length := by
  rw [TooShort, forall_unmark_cons_iff, unmark, List.length_map] at h
  omega

theorem blank_cons_iff (n : Marked) (s : List Marked) :
    Blank (unmark (n :: s)) ↔ n.1 = 0 ∨ TooShort (unmark (n :: s)) := by
  rw [Blank, TooShort, forall_unmark_cons_iff, forall_unmark_cons_iff]

theorem takeField_of_blank {s : List Marked} (h : Blank (unmark s)) :
    (takeField Prod.fst s).1.getD [] = [] ∧ (takeField Prod.fst s).2 = s.drop 1 := by
  cases s with
  | nil => exact ⟨rfl, rfl⟩
  | cons n s =>
      rcases (blank_cons_iff n s).mp h with hzero | hshort
      · rw [takeField_of_zero hzero]
        exact ⟨rfl, rfl⟩
      · rw [takeField_of_tooShort hshort]
        exact ⟨rfl, rfl⟩

theorem takeField_of_not_blank {s : List Marked} (h : ¬ Blank (unmark s)) :
    ∃ v, (takeField Prod.fst s).1 = some v ∧ v ≠ [] := by
  cases s with
  | nil => exact (h fun n t ht => by cases ht).elim
  | cons n s =>
      obtain ⟨hpos, hshort⟩ := not_or.mp (mt (blank_cons_iff n s).mpr h)
      have hroom := not_tooShort hshort
      rw [takeField_of_room hroom]
      refine ⟨_, rfl, fun hnil => ?_⟩
      have hlen := congrArg List.length hnil
      rw [List.length_take_of_le hroom] at hlen
      exact hpos (UInt8.toNat_inj.mp hlen)

theorem takeField_blank_iff (s : List Marked) :
    (takeField Prod.fst s).1.getD [] = [] ↔ Blank (unmark s) := by
  refine ⟨fun h => ?_, fun h => (takeField_of_blank h).1⟩
  by_contra hblank
  obtain ⟨v, hv, hne⟩ := takeField_of_not_blank hblank
  rw [hv] at h
  exact hne h

theorem takeFields_blank_iff (n : ℕ) (s : List Marked) :
    (∀ v ∈ (takeFields Prod.fst n s).1, v = []) ↔ ∀ i < n, Blank ((unmark s).drop i) := by
  induction n generalizing s with
  | zero => exact iff_of_true (fun v hv => by cases hv) fun i hi => by omega
  | succ n ih =>
      rw [takeFields]
      dsimp only
      by_cases hblank : Blank (unmark s)
      · obtain ⟨hvalue, hrest⟩ := takeField_of_blank hblank
        have hhead : ∀ v ∈ (takeField Prod.fst s).1.toList, v = [] := by
          intro v hv
          rw [Option.mem_toList] at hv
          rwa [hv] at hvalue
        rw [hrest, List.forall_mem_append, and_iff_right hhead, ih, unmark_drop]
        simp only [List.drop_drop]
        constructor
        · intro h i hi
          cases i with
          | zero => exact hblank
          | succ i => exact Nat.add_comm 1 i ▸ h i (by omega)
        · intro h i hi
          exact Nat.add_comm 1 i ▸ h (i + 1) (by omega)
      · obtain ⟨v, hv, hne⟩ := takeField_of_not_blank hblank
        refine iff_of_false (fun h => hne (h v ?_)) fun h => hblank (h 0 (by omega))
        rw [hv]
        exact List.mem_cons_self

theorem takeFields_of_blank {n : ℕ} {s : List Marked}
    (h : ∀ i < n, Blank ((unmark s).drop i)) :
    takeFields Prod.fst n s =
      (List.replicate (((unmark s).take n).count 0) [], s.drop n) := by
  induction n generalizing s with
  | zero => rfl
  | succ n ih =>
      cases s with
      | nil =>
          rw [takeFields_nil]
          rfl
      | cons b s =>
          have hrest : ∀ i < n, Blank ((unmark s).drop i) := fun i hi => h (i + 1) (by omega)
          have htake : (unmark (b :: s)).take (n + 1) = b.1 :: (unmark s).take n := rfl
          rw [takeFields, htake]
          rcases (blank_cons_iff b s).mp (h 0 (by omega)) with hzero | hshort
          · rw [takeField_of_zero hzero, hzero, List.count_cons_self, List.replicate_succ]
            dsimp only
            rw [ih hrest]
            rfl
          · have hne : b.1 ≠ 0 := fun hzero => by
              have hlt := hshort b.1 (unmark s) rfl
              rw [hzero] at hlt
              exact absurd hlt (Nat.not_lt_zero _)
            rw [takeField_of_tooShort hshort, List.count_cons_of_ne hne]
            have hdrop : (b :: s).drop 1 = s := rfl
            rw [hdrop]
            dsimp only
            rw [ih hrest]
            rfl

theorem TooShort.blank {s : Bytes} (h : TooShort s) : Blank s := fun n t ht => .inr (h n t ht)

theorem takeFields_tooShort_iff (n : ℕ) (s : List Marked) :
    (takeFields Prod.fst n s).1 = [] ↔ ∀ i < n, TooShort ((unmark s).drop i) := by
  induction n generalizing s with
  | zero => exact iff_of_true rfl fun i hi => by omega
  | succ n ih =>
      rw [takeFields]
      dsimp only
      by_cases hshort : TooShort (unmark s)
      · rw [takeField_of_tooShort hshort, Option.toList_none, List.nil_append, ih, unmark_drop]
        simp only [List.drop_drop]
        constructor
        · intro h i hi
          cases i with
          | zero => exact hshort
          | succ i => exact Nat.add_comm 1 i ▸ h i (by omega)
        · intro h i hi
          exact Nat.add_comm 1 i ▸ h (i + 1) (by omega)
      · refine iff_of_false (fun h => ?_) fun h => hshort (h 0 (by omega))
        cases s with
        | nil => exact hshort fun n t ht => by cases ht
        | cons b s =>
            rw [takeField_of_room (not_tooShort hshort), Option.toList_some] at h
            exact List.cons_ne_nil _ _ h

/-- The field has the value it was given or none, and all its bytes are its own. -/
def KeptText (part : Part) (value : Bytes) (field : List Marked) : Prop :=
  (unmark field = value ∨ unmark field = []) ∧ ∀ b ∈ field, b.2 = part

/-- The same for a field that is sent as text; text that denotes nothing gives no bytes. -/
def KeptPeerID (value : Bytes) (field : List Marked) : Prop :=
  (parsePeerIDHex (unmark field) = value ∨ parsePeerIDHex (unmark field) = []) ∧
    (parsePeerIDHex (unmark field) ≠ [] → ∀ b ∈ field, b.2 = .senderPeerID)

def KeptMentions (values : List Bytes) (fields : List (List Marked)) : Prop :=
  fields.map unmark <+: values ∧ ∀ field ∈ fields, ∀ b ∈ field, b.2 = .mentions

/-- No field of the message is mixed up. -/
structure Unmixed (message : BitchatMessage) (fields : Optionals Marked) : Prop where
  originalSender : KeptText .originalSender message.originalSender fields.originalSender
  recipientNickname : KeptText .recipientNickname message.recipientNickname
    fields.recipientNickname
  senderPeerID : KeptPeerID message.senderPeerID fields.peerIDHex
  mentions : KeptMentions message.mentions fields.mentions
  channel : KeptText .channel message.channel fields.channel

theorem keptText_nil (part : Part) (value : Bytes) : KeptText part value [] :=
  ⟨.inr rfl, fun b hb => by cases hb⟩

theorem keptText_mark (part : Part) (value : Bytes) : KeptText part value (mark part value) :=
  ⟨.inl (unmark_mark part value), fun _ hb => snd_of_mem_mark hb⟩

theorem keptText_foreign_iff {part : Part} {value : Bytes} {field : List Marked}
    (hforeign : ∀ b ∈ field, b.2 ≠ part) : KeptText part value field ↔ field = [] := by
  constructor
  · rintro ⟨-, hown⟩
    cases field with
    | nil => rfl
    | cons b field => exact (hforeign b (by simp) (hown b (by simp))).elim
  · rintro rfl
    exact keptText_nil part value

theorem keptPeerID_foreign_iff {value : Bytes} {field : List Marked}
    (hforeign : ∀ b ∈ field, b.2 ≠ .senderPeerID) :
    KeptPeerID value field ↔ parsePeerIDHex (unmark field) = [] := by
  constructor
  · rintro ⟨-, hown⟩
    by_contra hne
    cases field with
    | nil => exact hne rfl
    | cons b field => exact hforeign b (by simp) (hown hne b (by simp))
  · intro hnone
    exact ⟨.inr hnone, fun hne => (hne hnone).elim⟩

theorem keptMentions_foreign_iff {values : List Bytes} {fields : List (List Marked)}
    (hforeign : ∀ field ∈ fields, ∀ b ∈ field, b.2 ≠ .mentions) :
    KeptMentions values fields ↔
      (∀ field ∈ fields, field = []) ∧ List.replicate fields.length [] <+: values := by
  have hempty : (∀ field ∈ fields, field = []) → fields.map unmark =
      List.replicate fields.length [] := by
    intro hall
    rw [List.eq_replicate_iff.mpr ⟨rfl, hall⟩, List.map_replicate, List.length_replicate]
    rfl
  constructor
  · rintro ⟨hinit, hown⟩
    have hall : ∀ field ∈ fields, field = [] := fun field hfield => by
      cases field with
      | nil => rfl
      | cons b field =>
          exact (hforeign _ hfield b (by simp) (hown _ hfield b (by simp))).elim
    exact ⟨hall, hempty hall ▸ hinit⟩
  · rintro ⟨hall, hinit⟩
    refine ⟨hempty hall ▸ hinit, fun field hfield b hb => ?_⟩
    rw [hall field hfield] at hb
    cases hb

section From

variable (message : BitchatMessage)

def KeptFromChannel (s : List Marked) : Prop :=
  KeptText .channel message.channel (takeOptional Prod.fst (!message.channel.isEmpty) s).1

def KeptFromMentions (s : List Marked) : Prop :=
  let mentions := takeMentions Prod.fst (!message.mentions.isEmpty) s
  KeptMentions message.mentions mentions.1 ∧ KeptFromChannel message mentions.2

def KeptFromPeerID (s : List Marked) : Prop :=
  let peerIDHex := takeOptional Prod.fst (!(toHex message.senderPeerID).isEmpty) s
  KeptPeerID message.senderPeerID peerIDHex.1 ∧ KeptFromMentions message peerIDHex.2

def KeptFromRecipient (s : List Marked) : Prop :=
  let recipientNickname := takeOptional Prod.fst (!message.recipientNickname.isEmpty) s
  KeptText .recipientNickname message.recipientNickname recipientNickname.1 ∧
    KeptFromPeerID message recipientNickname.2

theorem unmixed_iff (s : List Marked) :
    Unmixed message (takeOptionals Prod.fst (messageFlags message) s) ↔
      KeptText .originalSender message.originalSender
          (takeOptional Prod.fst (!message.originalSender.isEmpty) s).1 ∧
        KeptFromRecipient message
          (takeOptional Prod.fst (!message.originalSender.isEmpty) s).2 := by
  obtain ⟨horiginal, hrecipient, hsender, hmentions, hchannel⟩ := messageFlags_optionals message
  rw [takeOptionals, horiginal, hrecipient, hsender, hmentions, hchannel]
  constructor
  · rintro ⟨ho, hr, hp, hm, hc⟩
    exact ⟨ho, hr, hp, hm, hc⟩
  · rintro ⟨ho, hr, hp, hm, hc⟩
    exact ⟨ho, hr, hp, hm, hc⟩

def BlankChannel (s : Bytes) : Prop := message.channel = [] ∨ Blank s

/-- A count and as many blank bytes; the empty mentions among them begin the list. -/
def BlankMentions (s : Bytes) : Prop :=
  if message.mentions = [] then BlankChannel message s
  else ∀ n t, s = n :: t → (∀ i < n.toNat, Blank (t.drop i)) ∧
    List.replicate ((t.take n.toNat).count 0) [] <+: message.mentions ∧
    BlankChannel message (t.drop n.toNat)

/-- A text that is too long for the bytes that are there, or that has no piece that is
accepted. -/
def BlankPeerID (s : Bytes) : Prop :=
  if message.senderPeerID = [] then BlankMentions message s
  else ∀ n t, s = n :: t →
    if n.toNat ≤ t.length then
      (∀ p ∈ pairs (t.take n.toNat), ¬ AcceptedPair p.1 p.2) ∧
        BlankMentions message (t.drop n.toNat)
    else BlankMentions message t

def BlankRecipient (s : Bytes) : Prop :=
  if message.recipientNickname = [] then BlankPeerID message s
  else Blank s ∧ BlankPeerID message (s.drop 1)

end From

theorem infix_takeField (s : List Marked) :
    (takeField Prod.fst s).1.getD [] <:+: s ∧ (takeField Prod.fst s).2 <:+ s := by
  cases s with
  | nil => exact ⟨List.infix_rfl, List.suffix_rfl⟩
  | cons n s =>
      have htail := List.suffix_cons n s
      rw [takeField]
      split_ifs
      · exact ⟨(List.take_prefix _ _).isInfix.trans htail.isInfix,
          (List.drop_suffix _ _).trans htail⟩
      · exact ⟨List.nil_infix, htail⟩

theorem infix_takeOptional (present : Bool) (s : List Marked) :
    (takeOptional Prod.fst present s).1 <:+: s ∧ (takeOptional Prod.fst present s).2 <:+ s := by
  rw [takeOptional]
  cases present with
  | false => exact ⟨List.nil_infix, List.suffix_rfl⟩
  | true => exact infix_takeField s

theorem infix_takeFields (n : ℕ) (s : List Marked) :
    (∀ field ∈ (takeFields Prod.fst n s).1, field <:+: s) ∧
      (takeFields Prod.fst n s).2 <:+ s := by
  induction n generalizing s with
  | zero => exact ⟨fun field hfield => (by cases hfield), List.suffix_rfl⟩
  | succ n ih =>
      obtain ⟨hvalue, hrest⟩ := infix_takeField s
      obtain ⟨hfields, hbehind⟩ := ih (takeField Prod.fst s).2
      rw [takeFields]
      refine ⟨fun field hfield => ?_, hbehind.trans hrest⟩
      rcases List.mem_append.mp hfield with hhead | htail
      · rw [Option.mem_toList] at hhead
        rwa [hhead] at hvalue
      · exact (hfields field htail).trans hrest.isInfix

variable {message : BitchatMessage} {part : Part} {s : List Marked}

theorem isEmpty_of_ne_nil {α : Type} {l : List α} (h : l ≠ []) : l.isEmpty = false :=
  List.isEmpty_eq_false_iff.mpr h

theorem keptFromChannel_foreign_iff (hs : ∀ b ∈ s, b.2 = part) (hpart : part ≠ .channel) :
    KeptFromChannel message s ↔ BlankChannel message (unmark s) := by
  have hforeign : ∀ b ∈ (takeOptional Prod.fst (!message.channel.isEmpty) s).1, b.2 ≠ .channel :=
    fun b hb => by rw [hs b ((infix_takeOptional _ s).1.subset hb)]; exact hpart
  rw [KeptFromChannel, keptText_foreign_iff hforeign, BlankChannel]
  by_cases hnone : message.channel = []
  · rw [hnone]
    exact iff_of_true rfl (.inl rfl)
  · rw [isEmpty_of_ne_nil hnone, or_iff_right hnone]
    exact takeField_blank_iff s

theorem keptFromMentions_foreign_iff (hs : ∀ b ∈ s, b.2 = part) (hpart : part ≠ .channel)
    (hpart' : part ≠ .mentions) :
    KeptFromMentions message s ↔ BlankMentions message (unmark s) := by
  rw [KeptFromMentions, BlankMentions]
  by_cases hnone : message.mentions = []
  · rw [if_pos hnone, hnone]
    refine Iff.trans (and_iff_right ⟨List.nil_prefix, fun field hfield => ?_⟩)
      (keptFromChannel_foreign_iff hs hpart)
    cases hfield
  rw [if_neg hnone, isEmpty_of_ne_nil hnone]
  cases s with
  | nil =>
      refine iff_of_true ⟨⟨List.nil_prefix, fun field hfield => ?_⟩, ?_⟩ fun n t ht => ?_
      · cases hfield
      · exact (keptFromChannel_foreign_iff hs hpart).mpr (.inr fun n t ht => by cases ht)
      · cases ht
  | cons n s =>
      have hrest : ∀ b ∈ s, b.2 = part := fun b hb => hs b (List.mem_cons_of_mem n hb)
      have hforeign : ∀ field ∈ (takeFields Prod.fst n.1.toNat s).1, ∀ b ∈ field,
          b.2 ≠ .mentions := fun field hfield b hb => by
        rw [hrest b (((infix_takeFields _ s).1 field hfield).subset hb)]
        exact hpart'
      have hread : takeMentions Prod.fst (!false) (n :: s) = takeFields Prod.fst n.1.toNat s := rfl
      have hbehind : ∀ b ∈ s.drop n.1.toNat, b.2 = part := fun b hb =>
        hrest b (List.mem_of_mem_drop hb)
      have hchannelIff : KeptFromChannel message (s.drop n.1.toNat) ↔
          BlankChannel message ((unmark s).drop n.1.toNat) :=
        unmark_drop n.1.toNat s ▸ keptFromChannel_foreign_iff hbehind hpart
      rw [hread, keptMentions_foreign_iff hforeign, takeFields_blank_iff, forall_unmark_cons_iff,
        and_assoc]
      apply and_congr_right
      intro hblank
      rw [takeFields_of_blank hblank, List.length_replicate, hchannelIff]

theorem keptFromPeerID_foreign_iff (hs : ∀ b ∈ s, b.2 = part) (hpart : part ≠ .channel)
    (hpart' : part ≠ .mentions) (hpart'' : part ≠ .senderPeerID) :
    KeptFromPeerID message s ↔ BlankPeerID message (unmark s) := by
  have hforeign : ∀ b ∈ (takeOptional Prod.fst (!(toHex message.senderPeerID).isEmpty) s).1,
      b.2 ≠ .senderPeerID := fun b hb => by
    rw [hs b ((infix_takeOptional _ s).1.subset hb)]
    exact hpart''
  rw [KeptFromPeerID, BlankPeerID, keptPeerID_foreign_iff hforeign, isEmpty_toHex]
  by_cases hnone : message.senderPeerID = []
  · rw [if_pos hnone, hnone]
    exact (and_iff_right rfl).trans (keptFromMentions_foreign_iff hs hpart hpart')
  rw [if_neg hnone, isEmpty_of_ne_nil hnone]
  cases s with
  | nil =>
      refine iff_of_true ⟨rfl, (keptFromMentions_foreign_iff hs hpart hpart').mpr ?_⟩
        fun n t ht => by cases ht
      rw [BlankMentions]
      split_ifs
      · exact .inr fun n t ht => by cases ht
      · intro n t ht
        cases ht
  | cons n s =>
      have hrest : ∀ b ∈ s, b.2 = part := fun b hb => hs b (List.mem_cons_of_mem n hb)
      rw [takeOptional, Bool.not_false, if_pos rfl]
      by_cases hroom : n.1.toNat ≤ s.length
      · rw [takeField_of_room hroom, Option.getD_some, keptFromMentions_foreign_iff
          (fun b hb => hrest b (List.mem_of_mem_drop hb)) hpart hpart', parsePeerIDHex_eq_nil_iff,
          unmark_drop, unmark_take, forall_unmark_cons_iff,
          if_pos (by rwa [unmark, List.length_map])]
      · rw [takeField, if_neg hroom, Option.getD_none, keptFromMentions_foreign_iff hrest hpart
          hpart', forall_unmark_cons_iff, if_neg (by rwa [unmark, List.length_map])]
        exact and_iff_right rfl

theorem keptFromRecipient_foreign_iff (hs : ∀ b ∈ s, b.2 = .originalSender) :
    KeptFromRecipient message s ↔ BlankRecipient message (unmark s) := by
  have hforeign : ∀ b ∈ (takeOptional Prod.fst (!message.recipientNickname.isEmpty) s).1,
      b.2 ≠ .recipientNickname := fun b hb => by
    rw [hs b ((infix_takeOptional _ s).1.subset hb)]
    decide
  rw [KeptFromRecipient, BlankRecipient, keptText_foreign_iff hforeign]
  by_cases hnone : message.recipientNickname = []
  · rw [if_pos hnone, hnone]
    exact (and_iff_right rfl).trans
      (keptFromPeerID_foreign_iff hs (by decide) (by decide) (by decide))
  · rw [if_neg hnone, isEmpty_of_ne_nil hnone, takeOptional, Bool.not_false, if_pos rfl,
      takeField_blank_iff]
    apply and_congr_right
    intro hblank
    rw [(takeField_of_blank hblank).2, ← unmark_drop]
    exact keptFromPeerID_foreign_iff (fun b hb => hs b (List.mem_of_mem_drop hb)) (by decide)
      (by decide) (by decide)

/-- A payload that may be cut inside the given bytes, with what holds then of the bytes behind
their first one, and otherwise of the bytes behind all of them. -/
def CutAt (bytes : Bytes) (inside behind : Bytes → Prop) (y : Bytes) : Prop :=
  if y.length < bytes.length then inside (y.drop 1) else behind (y.drop bytes.length)

/-- Behind the count of the mentions: if one of them is cut, no later one may be read, nor the
channel. -/
def HarmlessMentions (message : BitchatMessage) : List Bytes → Bytes → Prop
  | [], _ => True
  | s :: mentions, y =>
      if y.length < (fieldBytes s).length then
        (∀ i < mentions.length, TooShort ((y.drop 1).drop i)) ∧
          BlankChannel message ((y.drop 1).drop mentions.length)
      else HarmlessMentions message mentions (y.drop (fieldBytes s).length)

/-- What is left of the field that is cut is blank. -/
def HarmlessCut (message : BitchatMessage) (y : Bytes) : Prop :=
  CutAt (optionalBytes message.originalSender) (BlankRecipient message)
    (CutAt (optionalBytes message.recipientNickname) (BlankPeerID message)
      (CutAt (optionalBytes (toHex message.senderPeerID)) (BlankMentions message)
        (CutAt (mentionsBytes message.mentions) (HarmlessMentions message message.mentions)
          fun _ => True))) y

theorem fieldBytes_of_short {s : Bytes} (hs : s.length ≤ 255) :
    fieldBytes s = UInt8.ofNat s.length :: s := by
  rw [fieldBytes, take_min, List.take_of_length_le hs, Nat.min_eq_right hs, List.singleton_append]

theorem toNat_ofNat_byte {n : ℕ} (hn : n ≤ 255) : (UInt8.ofNat n).toNat = n := by
  rw [UInt8.toNat_ofNat']
  omega

theorem mark_fieldBytes {s : Bytes} (hs : s.length ≤ 255) (part : Part) :
    mark part (fieldBytes s) = (UInt8.ofNat s.length, part) :: mark part s := by
  rw [fieldBytes_of_short hs]
  rfl

theorem takeField_cut {v : Bytes} (hv : v.length ≤ 255) {part : Part} {k : ℕ}
    (hk : k < (fieldBytes v).length) :
    takeField Prod.fst ((mark part (fieldBytes v)).take k) =
      (none, ((mark part (fieldBytes v)).take k).drop 1) := by
  rw [mark_fieldBytes hv]
  rw [fieldBytes_of_short hv, List.length_cons] at hk
  cases k with
  | zero => rfl
  | succ k =>
      have hshort : ¬ (UInt8.ofNat v.length).toNat ≤ ((mark part v).take k).length := by
        rw [toNat_ofNat_byte hv, List.length_take, length_mark]
        omega
      rw [List.take_succ_cons, takeField, if_neg hshort]
      rfl

theorem takeField_whole {v : Bytes} (hv : v.length ≤ 255) (part : Part) (rest : List Marked) :
    takeField Prod.fst (mark part (fieldBytes v) ++ rest) = (some (mark part v), rest) := by
  rw [mark_fieldBytes hv]
  exact takeField_append Prod.fst ((toNat_ofNat_byte hv).trans (length_mark part v).symm) rest

theorem take_append_cases (a rest : List Marked) (k : ℕ) :
    k < a.length ∧ (a ++ rest).take k = a.take k ∨
      a.length ≤ k ∧ (a ++ rest).take k = a ++ rest.take (k - a.length) := by
  rcases Nat.lt_or_ge k a.length with hlt | hge
  · exact .inl ⟨hlt, List.take_append_of_le_length hlt.le⟩
  · exact .inr ⟨hge, by rw [List.take_append, List.take_of_length_le hge]⟩

theorem cutAt_inside (inside behind : Bytes → Prop) {a : Bytes} {k : ℕ} (hk : k < a.length) :
    CutAt a inside behind (unmark ((mark part a).take k)) ↔
      inside (unmark (((mark part a).take k).drop 1)) := by
  rw [CutAt, unmark_drop, if_pos]
  rw [unmark, List.length_map, List.length_take, length_mark]
  omega

theorem cutAt_behind (inside behind : Bytes → Prop) (a : Bytes) (rest : List Marked) :
    CutAt a inside behind (unmark (mark part a ++ rest)) ↔ behind (unmark rest) := by
  rw [CutAt, unmark_append, unmark_mark, List.drop_left, if_neg]
  rw [List.length_append]
  omega

/-- One field of the section: it is kept wherever the cut is, so what matters is what is read
behind it, from its own leftover or from the next field. -/
theorem keptFrom_step {v : Bytes} (hv : v.length ≤ 255) (keptField kept : List Marked → Prop)
    (inside behind : Bytes → Prop) (rest : List Marked) (hnone : keptField [])
    (hall : keptField (mark part v))
    (hinside : ∀ s, (∀ b ∈ s, b.2 = part) → (kept s ↔ inside (unmark s)))
    (hbehind : ∀ k, kept (rest.take k) ↔ behind (unmark (rest.take k))) (k : ℕ) :
    let s := (mark part (optionalBytes v) ++ rest).take k
    keptField (takeOptional Prod.fst (!v.isEmpty) s).1 ∧
        kept (takeOptional Prod.fst (!v.isEmpty) s).2 ↔
      CutAt (optionalBytes v) inside behind (unmark s) := by
  by_cases hempty : v = []
  · subst hempty
    have hskip : CutAt [] inside behind (unmark (mark part [] ++ rest.take k)) ↔
        behind (unmark (rest.take k)) := cutAt_behind inside behind [] (rest.take k)
    exact (and_iff_right hnone).trans ((hbehind k).trans hskip.symm)
  have hbytes : optionalBytes v = fieldBytes v := by
    rw [optionalBytes, isEmpty_of_ne_nil hempty, if_neg Bool.false_ne_true]
  rw [hbytes, isEmpty_of_ne_nil hempty, Bool.not_false]
  dsimp only [takeOptional]
  rcases take_append_cases (mark part (fieldBytes v)) rest k with ⟨hk, htake⟩ | ⟨hk, htake⟩
  · rw [length_mark] at hk
    have hleft : ∀ b ∈ ((mark part (fieldBytes v)).take k).drop 1, b.2 = part := fun b hb =>
      snd_of_mem_mark (List.mem_of_mem_take (List.mem_of_mem_drop hb))
    rw [htake, takeField_cut hv hk, cutAt_inside inside behind hk, if_pos rfl, ← hinside _ hleft]
    exact and_iff_right hnone
  · rw [htake, takeField_whole hv, cutAt_behind, if_pos rfl, ← hbehind]
    exact and_iff_right hall

/-- A mention that is cut is longer than what is left of it, so it is not read again. -/
theorem keptMentions_leftover_iff {v : Bytes} (hv : v.length ≤ 255) {k : ℕ}
    (hk : k < (fieldBytes v).length) (mentions : List Bytes) :
    let s := ((mark .mentions (fieldBytes v)).take k).drop 1
    (takeFields Prod.fst mentions.length s).1.map unmark <+: v :: mentions ∧
        KeptFromChannel message (takeFields Prod.fst mentions.length s).2 ↔
      (∀ i < mentions.length, TooShort ((unmark s).drop i)) ∧
        BlankChannel message ((unmark s).drop mentions.length) := by
  intro s
  have hs : ∀ b ∈ s, b.2 = .mentions := fun b hb =>
    snd_of_mem_mark (List.mem_of_mem_take (List.mem_of_mem_drop hb))
  have hlength : s.length = 0 ∨ s.length < v.length := by
    have hcount : s.length = k - 1 := by
      rw [List.length_drop, List.length_take, length_mark]
      omega
    rw [fieldBytes_of_short hv, List.length_cons] at hk
    omega
  have hinit : (takeFields Prod.fst mentions.length s).1.map unmark <+: v :: mentions ↔
      (takeFields Prod.fst mentions.length s).1 = [] := by
    constructor
    · intro hinit
      cases hfields : (takeFields Prod.fst mentions.length s).1 with
      | nil => rfl
      | cons field fields =>
          rw [hfields, List.map_cons, List.cons_prefix_cons] at hinit
          have hsub := (infix_takeFields mentions.length s).1 field (by rw [hfields]; simp)
          have hle := hsub.length_le
          rcases hlength with hzero | hlt
          · rw [List.eq_nil_of_length_eq_zero hzero, takeFields_nil] at hfields
            cases hfields
          · have heq := congrArg List.length hinit.1
            rw [unmark, List.length_map] at heq
            omega
    · intro hnone
      rw [hnone]
      exact List.nil_prefix
  rw [hinit, takeFields_tooShort_iff]
  apply and_congr_right
  intro hshort
  rw [takeFields_of_blank fun i hi => (hshort i hi).blank, ← unmark_drop]
  exact keptFromChannel_foreign_iff (fun b hb => hs b (List.mem_of_mem_drop hb)) (by decide)

theorem keptMentions_cut_iff (message : BitchatMessage) {mentions : List Bytes}
    (hshort : ∀ s ∈ mentions, s.length ≤ 255) {k : ℕ} (hk : k < (mentions.flatMap fieldBytes).length) :
    let s := (mark .mentions (mentions.flatMap fieldBytes)).take k
    (takeFields Prod.fst mentions.length s).1.map unmark <+: mentions ∧
        KeptFromChannel message (takeFields Prod.fst mentions.length s).2 ↔
      HarmlessMentions message mentions (unmark s) := by
  induction mentions generalizing k with
  | nil => exact absurd hk (Nat.not_lt_zero k)
  | cons v mentions ih =>
      have hv : v.length ≤ 255 := hshort v (by simp)
      have hrest : ∀ s ∈ mentions, s.length ≤ 255 := fun s hs => hshort s (by simp [hs])
      have hsplit : mark .mentions ((v :: mentions).flatMap fieldBytes) =
          mark .mentions (fieldBytes v) ++ mark .mentions (mentions.flatMap fieldBytes) :=
        List.map_append
      dsimp only
      rw [hsplit, List.length_cons, takeFields, HarmlessMentions]
      rcases take_append_cases (mark .mentions (fieldBytes v))
        (mark .mentions (mentions.flatMap fieldBytes)) k with ⟨hcut, htake⟩ | ⟨hwhole, htake⟩
      · rw [length_mark] at hcut
        have hlt : (unmark ((mark .mentions (fieldBytes v)).take k)).length <
            (fieldBytes v).length := by
          rw [unmark, List.length_map, List.length_take, length_mark]
          omega
        rw [htake, takeField_cut hv hcut, if_pos hlt, ← unmark_drop]
        exact keptMentions_leftover_iff hv hcut mentions
      · have hbehind : ¬ (unmark (mark .mentions (fieldBytes v) ++
            (mark .mentions (mentions.flatMap fieldBytes)).take
              (k - (mark .mentions (fieldBytes v)).length))).length < (fieldBytes v).length := by
          rw [unmark_append, unmark_mark, List.length_append]
          omega
        rw [length_mark] at hwhole
        rw [List.flatMap_cons, List.length_append] at hk
        rw [htake, takeField_whole hv, if_neg hbehind, unmark_append, unmark_mark, List.drop_left,
          Option.toList_some, List.singleton_append, List.map_cons, unmark_mark,
          List.cons_prefix_cons, and_iff_right rfl]
        exact ih hrest (by rw [length_mark]; omega)

theorem keptFromChannel_cut (hchannel : message.channel.length ≤ 255) (k : ℕ) :
    KeptFromChannel message ((mark .channel (optionalBytes message.channel)).take k) := by
  have hstep := keptFrom_step hchannel (KeptText .channel message.channel) (fun _ => True)
    (fun _ => True) (fun _ => True) [] (keptText_nil _ _) (keptText_mark _ _)
    (fun _ _ => Iff.rfl) (fun _ => Iff.rfl) k
  dsimp only at hstep
  rw [List.append_nil, CutAt, ite_self] at hstep
  exact (hstep.mpr trivial).1

theorem takeFields_whole {mentions : List Bytes} (hshort : ∀ s ∈ mentions, s.length ≤ 255)
    (rest : List Marked) :
    takeFields Prod.fst mentions.length
        (mark .mentions (mentions.flatMap fieldBytes) ++ rest) =
      (mentions.map (mark .mentions), rest) := by
  induction mentions with
  | nil => rfl
  | cons v mentions ih =>
      have hsplit : mark .mentions ((v :: mentions).flatMap fieldBytes) =
          mark .mentions (fieldBytes v) ++ mark .mentions (mentions.flatMap fieldBytes) :=
        List.map_append
      rw [List.length_cons, takeFields, hsplit, List.append_assoc,
        takeField_whole (hshort v (by simp))]
      dsimp only
      rw [ih fun s hs => hshort s (by simp [hs])]
      rfl

/-- Behind the count the mentions are read; a payload that ends in front of it has none. -/
theorem takeMentions_counted {n : ℕ} (hn : n ≤ 255) {s : List Marked}
    (hs : s = [] ∨ ∃ part t, s = (UInt8.ofNat n, part) :: t) :
    takeMentions Prod.fst true s = takeFields Prod.fst n (s.drop 1) := by
  rcases hs with rfl | ⟨part, t, rfl⟩
  · exact (takeFields_nil Prod.fst n).symm
  · change takeFields Prod.fst (UInt8.ofNat n).toNat t = _
    rw [toNat_ofNat_byte hn]
    rfl

theorem keptFromMentions_cut_iff (hcount : message.mentions.length ≤ 255)
    (hshort : ∀ s ∈ message.mentions, s.length ≤ 255) (hchannel : message.channel.length ≤ 255)
    (k : ℕ) :
    let s := (mark .mentions (mentionsBytes message.mentions) ++
      mark .channel (optionalBytes message.channel)).take k
    KeptFromMentions message s ↔
      CutAt (mentionsBytes message.mentions) (HarmlessMentions message message.mentions)
        (fun _ => True) (unmark s) := by
  dsimp only
  by_cases hnone : message.mentions = []
  · have hempty : KeptMentions [] [] := ⟨List.nil_prefix, fun field hfield => by cases hfield⟩
    rw [KeptFromMentions, hnone]
    exact iff_of_true ⟨hempty, keptFromChannel_cut hchannel k⟩
      ((if_neg (Nat.not_lt_zero _)).mpr trivial)
  have hbytes : mentionsBytes message.mentions =
      UInt8.ofNat message.mentions.length :: message.mentions.flatMap fieldBytes := by
    rw [mentionsBytes, isEmpty_of_ne_nil hnone, if_neg Bool.false_ne_true,
      Nat.min_eq_right hcount, List.singleton_append]
  have hmark : mark .mentions (mentionsBytes message.mentions) =
      (UInt8.ofNat message.mentions.length, Part.mentions) ::
        mark .mentions (message.mentions.flatMap fieldBytes) := by
    rw [hbytes]
    rfl
  rw [KeptFromMentions, isEmpty_of_ne_nil hnone, Bool.not_false]
  rcases take_append_cases (mark .mentions (mentionsBytes message.mentions))
    (mark .channel (optionalBytes message.channel)) k with ⟨hk, htake⟩ | ⟨hk, htake⟩
  · rw [length_mark] at hk
    have hdrop : ((mark .mentions (mentionsBytes message.mentions)).take k).drop 1 =
        (mark .mentions (message.mentions.flatMap fieldBytes)).take (k - 1) := by
      rw [List.drop_take, hmark]
      rfl
    have hread : takeMentions Prod.fst true
          ((mark .mentions (mentionsBytes message.mentions)).take k) =
        takeFields Prod.fst message.mentions.length
          ((mark .mentions (message.mentions.flatMap fieldBytes)).take (k - 1)) := by
      rw [← hdrop, hmark]
      apply takeMentions_counted hcount
      cases k with
      | zero => exact .inl rfl
      | succ k => exact .inr ⟨.mentions, _, rfl⟩
    have hfirst : 0 < (message.mentions.flatMap fieldBytes).length := by
      obtain ⟨v, mentions, hmentions⟩ := List.exists_cons_of_ne_nil hnone
      have hpos := length_fieldBytes_pos v
      rw [hmentions, List.flatMap_cons, List.length_append]
      omega
    rw [htake, cutAt_inside _ _ hk, hread, hdrop]
    rw [hbytes, List.length_cons] at hk
    have hcut := keptMentions_cut_iff message hshort (show k - 1 < _ by omega)
    dsimp only at hcut
    rw [← hcut, KeptMentions]
    refine and_congr_left fun _ => and_iff_left fun field hfield b hb => ?_
    exact snd_of_mem_mark (List.mem_of_mem_take
      (((infix_takeFields _ _).1 field hfield).subset hb))
  · rw [htake, cutAt_behind, hmark, List.cons_append,
      takeMentions_counted hcount (.inr ⟨.mentions, _, rfl⟩), List.drop_one, List.tail_cons,
      takeFields_whole hshort]
    refine iff_of_true ⟨⟨?_, fun field hfield b hb => ?_⟩, keptFromChannel_cut hchannel _⟩ trivial
    · rw [List.map_map]
      have hsame : message.mentions.map (unmark ∘ mark .mentions) = message.mentions :=
        (List.map_congr_left fun s _ => unmark_mark .mentions s).trans (List.map_id _)
      rw [hsame]
    · obtain ⟨v, -, rfl⟩ := List.mem_map.mp hfield
      exact snd_of_mem_mark hb

theorem keptPeerID_nil (value : Bytes) : KeptPeerID value [] :=
  ⟨.inr rfl, fun hne => (hne rfl).elim⟩

theorem keptPeerID_mark (value : Bytes) :
    KeptPeerID value (mark .senderPeerID (toHex value)) := by
  have hread := parsePeerIDHex_take_toHex value value.length
  rw [List.take_length, List.take_of_length_le (by rw [length_toHex]; omega)] at hread
  refine ⟨.inl ?_, fun _ b hb => snd_of_mem_mark hb⟩
  rw [unmark_mark, hread]

/-- The fields of a message that is cut after `k` bytes of its optional section are kept, if
and only if the cut is harmless. -/
theorem unmixed_cut_iff (hlimits : WithinLimits message) (k : ℕ) :
    Unmixed message (takeOptionals Prod.fst (messageFlags message)
        ((markedSection message).take k)) ↔
      HarmlessCut message (unmark ((markedSection message).take k)) := by
  have hhex : (toHex message.senderPeerID).length ≤ 255 := by
    have hshort := hlimits.senderPeerID
    rw [length_toHex]
    omega
  have hmentions := keptFromMentions_cut_iff hlimits.mentions hlimits.mention hlimits.channel
  have hpeer := keptFrom_step hhex (KeptPeerID message.senderPeerID) (KeptFromMentions message)
    (BlankMentions message) _ _ (keptPeerID_nil _) (keptPeerID_mark _)
    (fun s hs => keptFromMentions_foreign_iff hs (by decide) (by decide)) hmentions
  have hrecipient := keptFrom_step hlimits.recipientNickname
    (KeptText .recipientNickname message.recipientNickname) (KeptFromPeerID message)
    (BlankPeerID message) _ _ (keptText_nil _ _) (keptText_mark _ _)
    (fun s hs => keptFromPeerID_foreign_iff hs (by decide) (by decide) (by decide)) hpeer
  have horiginal := keptFrom_step hlimits.originalSender
    (KeptText .originalSender message.originalSender) (KeptFromRecipient message)
    (BlankRecipient message) _ _ (keptText_nil _ _) (keptText_mark _ _)
    (fun s hs => keptFromRecipient_foreign_iff hs) hrecipient
  exact (unmixed_iff message _).trans (horiginal k)

structure FieldsKept (message parsed : BitchatMessage) : Prop where
  originalSender : parsed.originalSender = message.originalSender ∨ parsed.originalSender = []
  recipientNickname : parsed.recipientNickname = message.recipientNickname ∨
    parsed.recipientNickname = []
  senderPeerID : parsed.senderPeerID = message.senderPeerID ∨ parsed.senderPeerID = []
  mentions : parsed.mentions <+: message.mentions
  channel : parsed.channel = message.channel ∨ parsed.channel = []

structure OwnBytes (fields : Optionals Marked) : Prop where
  originalSender : ∀ b ∈ fields.originalSender, b.2 = .originalSender
  recipientNickname : ∀ b ∈ fields.recipientNickname, b.2 = .recipientNickname
  senderPeerID : parsePeerIDHex (unmark fields.peerIDHex) ≠ [] →
    ∀ b ∈ fields.peerIDHex, b.2 = .senderPeerID
  mentions : ∀ field ∈ fields.mentions, ∀ b ∈ field, b.2 = .mentions
  channel : ∀ b ∈ fields.channel, b.2 = .channel

theorem unmixed_iff_kept_own (message start : BitchatMessage) (fields : Optionals Marked) :
    Unmixed message fields ↔
      FieldsKept message (attach fields.erase start) ∧ OwnBytes fields := by
  constructor
  · rintro ⟨ho, hr, hp, hm, hc⟩
    exact ⟨⟨ho.1, hr.1, hp.1, hm.1, hc.1⟩, ⟨ho.2, hr.2, hp.2, hm.2, hc.2⟩⟩
  · rintro ⟨⟨ho, hr, hp, hm, hc⟩, ⟨ho', hr', hp', hm', hc'⟩⟩
    exact ⟨⟨ho, ho'⟩, ⟨hr, hr'⟩, ⟨hp, hp'⟩, ⟨hm, hm'⟩, ⟨hc, hc'⟩⟩

/-- A prefix of a payload that contains the whole mandatory part is read as marked bytes are,
and its fields are not mixed up if and only if what is left of the field that is cut is blank. -/
theorem truncated_unmixed_iff (uuid x : Bytes) (message : BitchatMessage)
    (hlimits : WithinLimits message) (hx : x <+: makeMessagePayload uuid message)
    (hmandatory : (mandatoryBytes uuid message).length ≤ x.length) :
    let y := x.drop (mandatoryBytes uuid message).length
    let fields := takeOptionals Prod.fst (messageFlags message)
      ((markedSection message).take y.length)
    let parsed := attach fields.erase (mandatoryFields uuid message)
    parseMessagePayload x = .ok ⟨parsed, none⟩ ∧
      (FieldsKept message parsed ∧ OwnBytes fields ↔ HarmlessCut message y) := by
  intro y fields parsed
  rw [makeMessagePayload_sections] at hx
  have hsplit : x = mandatoryBytes uuid message ++ y := by
    have hinit := List.prefix_of_prefix_length_le (List.prefix_append _ _) hx hmandatory
    exact (List.prefix_iff_eq_append.mp hinit).symm
  have hy : y = unmark ((markedSection message).take y.length) := by
    rw [hsplit, List.prefix_append_right_inj] at hx
    rw [unmark_take, unmark_markedSection]
    exact List.prefix_iff_eq_take.mp hx
  constructor
  · conv_lhs => rw [hsplit, parse_mandatory_append, hy, takeOptionals_unmark]
  · conv_rhs => rw [hy]
    rw [← unmixed_cut_iff hlimits]
    exact (unmixed_iff_kept_own message _ fields).symm

/-- A message whose original sender is long enough to hold another name. -/
def forwardedMessage : BitchatMessage where
  id := [0x6D]
  originalSender := [0x01, 0x41, 0x42]
  recipientNickname := [0x63]

theorem withinLimits_forwardedMessage : WithinLimits forwardedMessage :=
  ⟨by decide, by decide, by decide, by decide, by decide, by decide, by decide, by decide,
    by decide⟩

/-- Without the last byte the recipient is missing and nothing is mixed up. -/
theorem truncated_unmixed_iff_last :
    let x := (makeMessagePayload [] forwardedMessage).dropLast
    let y := x.drop (mandatoryBytes [] forwardedMessage).length
    let fields := takeOptionals Prod.fst (messageFlags forwardedMessage)
      ((markedSection forwardedMessage).take y.length)
    let parsed := attach fields.erase (mandatoryFields [] forwardedMessage)
    parseMessagePayload x = .ok ⟨parsed, none⟩ ∧
      (FieldsKept forwardedMessage parsed ∧ OwnBytes fields ↔ HarmlessCut forwardedMessage y) :=
  truncated_unmixed_iff [] _ forwardedMessage withinLimits_forwardedMessage
    (List.dropLast_prefix _) (by decide +kernel)

/-- Cut inside the original sender, a byte of it becomes the recipient. -/
theorem truncated_mixed :
    ¬ ∀ (uuid x : Bytes) (message parsed : BitchatMessage), WithinLimits message →
      message.isEncrypted = false → message.id ≠ [] → x <+: makeMessagePayload uuid message →
      x ≠ makeMessagePayload uuid message → (mandatoryBytes uuid message).length ≤ x.length →
      parseMessagePayload x = .ok ⟨parsed, none⟩ → FieldsKept message parsed := by
  intro h
  have hkept := h [] ((makeMessagePayload [] forwardedMessage).take 17) forwardedMessage
    { id := [0x6D], recipientNickname := [0x41] } withinLimits_forwardedMessage rfl (by decide)
    (List.take_prefix _ _) (by decide +kernel) (by decide +kernel) (by decide +kernel)
  exact absurd hkept.recipientNickname (by decide)

end Bitchat.PacketSerializer
