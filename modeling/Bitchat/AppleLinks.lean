import Bitchat.AppleBluetooth
import Bitchat.LinuxBluetooth

/-!
# Links of the Apple transport

A device that has connected once stays among the discovered ones for good, and a discovered
device is not asked to connect. Its link is therefore the only one of the run: what the
transport can write to are the devices that have connected and have never gone.
-/

namespace Bitchat

open StringHelper

theorem dash_mem_UUIDString (peripheral : CBPeripheral) : 0x2D ∈ peripheral.UUIDString := by
  simp [CBPeripheral.UUIDString]

theorem toUpper_ne_dash {c : UInt8} (h : c ∈ lowerHexDigits) : toUpper c ≠ 0x2D := by
  have hall : lowerHexDigits.all (fun c => decide (toUpper c ≠ 0x2D)) = true := by decide
  exact of_decide_eq_true (List.all_eq_true.mp hall c h)

def toLower (c : UInt8) : UInt8 := if 0x41 ≤ c ∧ c ≤ 0x46 then c + 0x20 else c

theorem toLower_toUpper {c : UInt8} (h : c ∈ lowerHexDigits) : toLower (toUpper c) = c := by
  have hall : lowerHexDigits.all (fun c => decide (toLower (toUpper c) = c)) = true := by decide
  exact of_decide_eq_true (List.all_eq_true.mp hall c h)

theorem filter_UUIDString (peripheral : CBPeripheral) :
    peripheral.UUIDString.filter (· ≠ 0x2D) =
      (toHex peripheral.identifier.toList).map toUpper := by
  set digits := (toHex peripheral.identifier.toList).map toUpper with hdigits
  have hnone : ∀ c ∈ digits, c ≠ 0x2D := by
    intro c hc
    obtain ⟨digit, hdigit, rfl⟩ := List.mem_map.mp (hdigits ▸ hc)
    exact toUpper_ne_dash (isLowerHex_toHex _ digit hdigit)
  have hpart : ∀ part : Bytes, part.Sublist digits → part.filter (· ≠ 0x2D) = part := by
    intro part hpart
    exact List.filter_eq_self.mpr fun c hc => decide_eq_true (hnone c (hpart.subset hc))
  have hmiddle : ∀ n, ((digits.drop n).take 4).filter (· ≠ 0x2D) = (digits.drop n).take 4 :=
    fun n => hpart _ ((List.take_sublist _ _).trans (List.drop_sublist _ _))
  have hdash : ([0x2D] : Bytes).filter (· ≠ 0x2D) = [] := rfl
  unfold CBPeripheral.UUIDString
  simp only [← hdigits, List.filter_append, hdash, List.append_nil, hmiddle,
    hpart _ (List.take_sublist 8 digits), hpart _ (List.drop_sublist 20 digits)]
  have hjoin : ∀ n, (digits.drop n).take 4 ++ digits.drop (n + 4) = digits.drop n := by
    intro n
    rw [← List.drop_drop, List.take_append_drop]
  rw [List.append_assoc, hjoin 16, List.append_assoc, hjoin 12, List.append_assoc, hjoin 8,
    List.take_append_drop]

theorem map_toLower_filter_UUIDString (peripheral : CBPeripheral) :
    (peripheral.UUIDString.filter (· ≠ 0x2D)).map toLower =
      toHex peripheral.identifier.toList := by
  rw [filter_UUIDString, List.map_map]
  calc (toHex peripheral.identifier.toList).map (toLower ∘ toUpper)
      = (toHex peripheral.identifier.toList).map id :=
        List.map_congr_left fun c hc => toLower_toUpper (isLowerHex_toHex _ c hc)
    _ = toHex peripheral.identifier.toList := List.map_id _

theorem UUIDString_injective : Function.Injective CBPeripheral.UUIDString := by
  intro p q h
  have hdigits := congrArg (fun id => (List.filter (· ≠ 0x2D) id).map toLower) h
  rw [map_toLower_filter_UUIDString, map_toLower_filter_UUIDString] at hdigits
  have hbytes := Vector.toList_inj.mp (toHex_injective hdigits)
  cases p
  cases q
  rw [CBPeripheral.mk.injEq]
  exact hbytes

namespace AppleBluetooth

def Emits (bluetooth bluetooth' : AppleBluetooth) : Prop :=
  ∃ events, bluetooth' = { bluetooth with trace := bluetooth.trace ++ events }

theorem emits_refl (bluetooth : AppleBluetooth) : Emits bluetooth bluetooth :=
  ⟨[], by rw [List.append_nil]⟩

theorem Emits.trans {a b c : AppleBluetooth} (h : Emits a b) (h' : Emits b c) : Emits a c := by
  obtain ⟨events, rfl⟩ := h
  obtain ⟨events', rfl⟩ := h'
  exact ⟨events ++ events', by rw [List.append_assoc]⟩

theorem emits_emit (event : AppleEvent) (bluetooth : AppleBluetooth) :
    Emits bluetooth (emit event bluetooth) := ⟨[event], rfl⟩

theorem emits_foldl {α : Type} {f : AppleBluetooth → α → AppleBluetooth}
    (h : ∀ bluetooth a, Emits bluetooth (f bluetooth a)) (items : List α)
    (bluetooth : AppleBluetooth) : Emits bluetooth (items.foldl f bluetooth) := by
  induction items generalizing bluetooth with
  | nil => exact emits_refl bluetooth
  | cons item items ih => exact (h bluetooth item).trans (ih _)

theorem emits_ite {c : Prop} [Decidable c] {bluetooth b b' : AppleBluetooth}
    (h : Emits bluetooth b) (h' : Emits bluetooth b') : Emits bluetooth (if c then b else b') := by
  split
  · exact h
  · exact h'

theorem emits_didDiscoverServices (peripheral : CBPeripheral) (services : List Bytes)
    (bluetooth : AppleBluetooth) :
    Emits bluetooth (didDiscoverServices peripheral services bluetooth) :=
  emits_foldl (fun bluetooth _ => emits_ite (emits_emit _ bluetooth) (emits_refl bluetooth)) _ _

theorem emits_didUpdateValue (peripheral : CBPeripheral) (value : Option Bytes)
    (bluetooth : AppleBluetooth) : Emits bluetooth (didUpdateValue peripheral value bluetooth) := by
  cases value with
  | none => exact emits_refl bluetooth
  | some data => exact emits_ite (emits_refl bluetooth) (emits_emit _ bluetooth)

theorem emits_didReceiveWriteRequests (requests : List (Option Bytes))
    (bluetooth : AppleBluetooth) :
    Emits bluetooth (didReceiveWriteRequests requests bluetooth) := by
  refine emits_foldl (fun bluetooth value => ?_) _ _
  cases value with
  | none => exact emits_emit _ bluetooth
  | some data => exact (emits_ite (emits_emit _ bluetooth) (emits_refl bluetooth)).trans (emits_emit _ _)

theorem emits_writeAll (data : Bytes) (peripherals : List CBPeripheral)
    (bluetooth : AppleBluetooth) : Emits bluetooth (writeAll data peripherals bluetooth) :=
  emits_foldl (fun bluetooth _ => emits_ite (emits_emit _ bluetooth) (emits_refl bluetooth)) _ _

theorem emits_updateSubscribers (data : Bytes) (bluetooth : AppleBluetooth) :
    Emits bluetooth (updateSubscribers data bluetooth) :=
  emits_ite (emits_emit _ bluetooth) (emits_refl bluetooth)

theorem emits_sendPacket (data : Bytes) (bluetooth : AppleBluetooth) :
    Emits bluetooth (sendPacket data bluetooth).2 := by
  unfold sendPacket
  split
  · exact (emits_writeAll data _ bluetooth).trans (emits_updateSubscribers data _)
  · exact emits_refl bluetooth

theorem emits_sendPacketToPeripheral (data : Bytes) (peripheral : CBPeripheral)
    (bluetooth : AppleBluetooth) :
    Emits bluetooth (sendPacketToPeripheral data peripheral bluetooth).2 := by
  unfold sendPacketToPeripheral
  split_ifs
  · exact emits_refl bluetooth
  · exact emits_emit _ bluetooth
  · exact emits_refl bluetooth

theorem emits_sendPacketToPeer (data peerID : Bytes) (bluetooth : AppleBluetooth) :
    Emits bluetooth (sendPacketToPeer data peerID bluetooth).2 := by
  unfold sendPacketToPeer
  split
  · exact emits_sendPacketToPeripheral data _ bluetooth
  · exact emits_refl bluetooth

theorem emits_sendPacketToPeripheralID (data peripheralID : Bytes) (bluetooth : AppleBluetooth) :
    Emits bluetooth (sendPacketToPeripheralID data peripheralID bluetooth).2 := by
  unfold sendPacketToPeripheralID
  split
  · exact emits_sendPacketToPeripheral data _ bluetooth
  · exact emits_refl bluetooth

structure SameLinks (bluetooth bluetooth' : AppleBluetooth) : Prop where
  pending : bluetooth'.centralManager.pending = bluetooth.centralManager.pending
  linked : bluetooth'.centralManager.linked = bluetooth.centralManager.linked
  discovered : bluetooth'.discoveredPeripherals = bluetooth.discoveredPeripherals
  connected : bluetooth'.connectedPeripherals = bluetooth.connectedPeripherals
  characteristics : bluetooth'.peripheralCharacteristics = bluetooth.peripheralCharacteristics

theorem Emits.sameLinks {bluetooth bluetooth' : AppleBluetooth} (h : Emits bluetooth bluetooth') :
    SameLinks bluetooth bluetooth' := by
  obtain ⟨events, rfl⟩ := h
  exact ⟨rfl, rfl, rfl, rfl, rfl⟩

theorem SameLinks.trans {a b c : AppleBluetooth} (h : SameLinks a b) (h' : SameLinks b c) :
    SameLinks a c :=
  ⟨h'.pending.trans h.pending, h'.linked.trans h.linked, h'.discovered.trans h.discovered,
    h'.connected.trans h.connected, h'.characteristics.trans h.characteristics⟩

theorem sameLinks_ite {c : Prop} [Decidable c] {bluetooth b b' : AppleBluetooth}
    (h : SameLinks bluetooth b) (h' : SameLinks bluetooth b') :
    SameLinks bluetooth (if c then b else b') := by
  split
  · exact h
  · exact h'

def Action.touchesLinks : Action → Bool
  | .didDiscoverPeripheral _ => true
  | .didConnectPeripheral _ => true
  | .didDisconnectPeripheral _ => true
  | .didFailToConnectPeripheral _ => true
  | .didDiscoverCharacteristics _ _ => true
  | _ => false

theorem sameLinks_performBlock (block : MainBlock) (bluetooth : AppleBluetooth) :
    SameLinks bluetooth (performBlock block bluetooth) := by
  cases block with
  | startScanning => exact sameLinks_ite ⟨rfl, rfl, rfl, rfl, rfl⟩ ⟨rfl, rfl, rfl, rfl, rfl⟩
  | setUpAndAdvertise => exact sameLinks_ite ⟨rfl, rfl, rfl, rfl, rfl⟩ ⟨rfl, rfl, rfl, rfl, rfl⟩

theorem sameLinks_runMainQueue (bluetooth : AppleBluetooth) :
    SameLinks bluetooth (runMainQueue bluetooth) := by
  unfold runMainQueue
  split
  · exact ⟨rfl, rfl, rfl, rfl, rfl⟩
  · next block mainQueue _ =>
    have hqueue : SameLinks bluetooth { bluetooth with mainQueue } := ⟨rfl, rfl, rfl, rfl, rfl⟩
    exact hqueue.trans (sameLinks_performBlock block _)

theorem sameLinks_centralManagerDidUpdateState (bluetooth : AppleBluetooth) :
    SameLinks bluetooth (centralManagerDidUpdateState bluetooth) :=
  sameLinks_ite ⟨rfl, rfl, rfl, rfl, rfl⟩ ⟨rfl, rfl, rfl, rfl, rfl⟩

theorem sameLinks_perform (bluetooth : AppleBluetooth) {action : Action}
    (h : action.touchesLinks = false) : SameLinks bluetooth (perform bluetooth action) := by
  cases action with
  | centralManagerState poweredOn =>
      have hstate : SameLinks bluetooth { bluetooth with
          centralManager := { bluetooth.centralManager with poweredOn } } := ⟨rfl, rfl, rfl, rfl, rfl⟩
      exact hstate.trans (sameLinks_centralManagerDidUpdateState _)
  | peripheralManagerState poweredOn =>
      exact sameLinks_ite ⟨rfl, rfl, rfl, rfl, rfl⟩ ⟨rfl, rfl, rfl, rfl, rfl⟩
  | mainQueue => exact sameLinks_runMainQueue bluetooth
  | initialized => exact ⟨rfl, rfl, rfl, rfl, rfl⟩
  | stop => exact ⟨rfl, rfl, rfl, rfl, rfl⟩
  | stateChanged peripheral connected => exact ⟨rfl, rfl, rfl, rfl, rfl⟩
  | didDiscoverServices peripheral services =>
      exact (emits_didDiscoverServices peripheral services bluetooth).sameLinks
  | didUpdateValue peripheral value =>
      exact (emits_didUpdateValue peripheral value bluetooth).sameLinks
  | didReceiveWriteRequests requests =>
      exact (emits_didReceiveWriteRequests requests bluetooth).sameLinks
  | didSubscribe central => exact sameLinks_ite ⟨rfl, rfl, rfl, rfl, rfl⟩ ⟨rfl, rfl, rfl, rfl, rfl⟩
  | didUnsubscribe central => exact ⟨rfl, rfl, rfl, rfl, rfl⟩
  | sendPacket data => exact (emits_sendPacket data bluetooth).sameLinks
  | sendPacketToPeer data peerID => exact (emits_sendPacketToPeer data peerID bluetooth).sameLinks
  | sendPacketToPeripheralID data peripheralID =>
      exact (emits_sendPacketToPeripheralID data peripheralID bluetooth).sameLinks
  | _ => cases h

theorem didDiscoverCharacteristics_eq (peripheral : CBPeripheral) (characteristics : List Bytes)
    (bluetooth : AppleBluetooth) :
    ∃ events, didDiscoverCharacteristics peripheral characteristics bluetooth = { bluetooth with
      peripheralCharacteristics :=
        if CHARACTERISTIC_UUID ∈ characteristics then
          bluetooth.peripheralCharacteristics.insert peripheral
        else bluetooth.peripheralCharacteristics
      trace := bluetooth.trace ++ events } := by
  induction characteristics generalizing bluetooth with
  | nil => exact ⟨[], by simp [didDiscoverCharacteristics]⟩
  | cons characteristic characteristics ih =>
      by_cases hours : characteristic = CHARACTERISTIC_UUID
      · obtain ⟨events, hrest⟩ := ih (foundCharacteristic peripheral bluetooth)
        refine ⟨[.setNotifyValue peripheral, .peripheralDiscovered peripheral.UUIDString] ++ events,
          ?_⟩
        rw [didDiscoverCharacteristics, List.foldl_cons, if_pos hours, if_pos (by simp [hours])]
        refine hrest.trans ?_
        simp [foundCharacteristic, emit]
      · obtain ⟨events, hrest⟩ := ih bluetooth
        refine ⟨events, ?_⟩
        have hmem : CHARACTERISTIC_UUID ∈ characteristic :: characteristics ↔
            CHARACTERISTIC_UUID ∈ characteristics := by
          rw [List.mem_cons, or_iff_right (Ne.symm hours)]
        rw [didDiscoverCharacteristics, List.foldl_cons, if_neg hours]
        simp only [hmem]
        exact hrest

def Action.finds (peripheral : CBPeripheral) : Action → Prop
  | .didDiscoverCharacteristics peripheral' characteristics =>
      peripheral' = peripheral ∧ CHARACTERISTIC_UUID ∈ characteristics
  | _ => False

section Step

variable (bluetooth : AppleBluetooth) (action : Action) (peripheral : CBPeripheral)

theorem mem_linked_perform :
    peripheral ∈ (perform bluetooth action).centralManager.linked ↔
      action ≠ .didDisconnectPeripheral peripheral ∧
        (peripheral ∈ bluetooth.centralManager.linked ∨
          action = .didConnectPeripheral peripheral) := by
  cases action with
  | didDiscoverPeripheral other =>
      rw [perform, didDiscoverPeripheral]
      split <;> simp [connectPeripheral, emit]
  | didConnectPeripheral other =>
      simp [perform, didConnectPeripheral, answered, setLinked, emit, or_comm, eq_comm]
  | didDisconnectPeripheral other =>
      change peripheral ∈ bluetooth.centralManager.linked.filter (· ≠ other) ↔ _
      rw [List.mem_filter, decide_eq_true_iff, and_comm, ne_comm]
      simp
  | didFailToConnectPeripheral other =>
      simp [perform, didFailToConnectPeripheral, answered]
  | didDiscoverCharacteristics other characteristics =>
      obtain ⟨events, heq⟩ := didDiscoverCharacteristics_eq other characteristics bluetooth
      simp [perform, heq]
  | _ =>
      rw [(sameLinks_perform bluetooth rfl).linked]
      simp

theorem mem_characteristics_perform :
    peripheral ∈ (perform bluetooth action).peripheralCharacteristics ↔
      action ≠ .didDisconnectPeripheral peripheral ∧
        (peripheral ∈ bluetooth.peripheralCharacteristics ∨ action.finds peripheral) := by
  cases action with
  | didDiscoverPeripheral other =>
      rw [perform, didDiscoverPeripheral]
      split <;> simp [connectPeripheral, emit, Action.finds]
  | didConnectPeripheral other =>
      simp [perform, didConnectPeripheral, answered, setLinked, emit, Action.finds]
  | didDisconnectPeripheral other =>
      change peripheral ∈ bluetooth.peripheralCharacteristics.filter (· ≠ other) ↔ _
      rw [List.mem_filter, decide_eq_true_iff, and_comm, ne_comm]
      simp [Action.finds]
  | didFailToConnectPeripheral other =>
      simp [perform, didFailToConnectPeripheral, answered, Action.finds]
  | didDiscoverCharacteristics other characteristics =>
      obtain ⟨events, heq⟩ := didDiscoverCharacteristics_eq other characteristics bluetooth
      simp only [perform, heq, Action.finds]
      split
      · next hours => simp [hours, or_comm, eq_comm]
      · next hours => simp [hours]
  | _ =>
      rw [(sameLinks_perform bluetooth rfl).characteristics]
      simp [Action.finds]

end Step

/-- The device is discovered, and its connection is not awaited. -/
def Settled (peripheral : CBPeripheral) (bluetooth : AppleBluetooth) : Prop :=
  peripheral ∈ bluetooth.discoveredPeripherals ∧
    peripheral ∉ bluetooth.centralManager.pending

theorem SameLinks.settled {peripheral : CBPeripheral} {bluetooth bluetooth' : AppleBluetooth}
    (h : SameLinks bluetooth bluetooth') (hsettled : Settled peripheral bluetooth) :
    Settled peripheral bluetooth' := by
  rw [Settled, h.discovered, h.pending]
  exact hsettled

theorem settled_perform {peripheral : CBPeripheral} (bluetooth : AppleBluetooth) (action : Action)
    (hreported : Reported bluetooth action) (h : Settled peripheral bluetooth) :
    Settled peripheral (perform bluetooth action) := by
  obtain ⟨hdiscovered, hpending⟩ := h
  cases action with
  | didDiscoverPeripheral other =>
      rw [perform, didDiscoverPeripheral]
      split
      · exact ⟨hdiscovered, hpending⟩
      · next hnew =>
        have hother : peripheral ≠ other := fun heq => hnew (heq ▸ hdiscovered)
        exact ⟨List.mem_append_left _ hdiscovered, by simp [connectPeripheral, emit, hother, hpending]⟩
  | didConnectPeripheral other =>
      exact ⟨hdiscovered, fun hmem => hpending (List.mem_of_mem_filter hmem)⟩
  | didDisconnectPeripheral other => exact ⟨hdiscovered, hpending⟩
  | didFailToConnectPeripheral other =>
      have hother : peripheral ≠ other := fun heq => hpending (heq ▸ hreported)
      exact ⟨List.mem_filter.mpr ⟨hdiscovered, decide_eq_true hother⟩,
        fun hmem => hpending (List.mem_of_mem_filter hmem)⟩
  | didDiscoverCharacteristics other characteristics =>
      obtain ⟨events, heq⟩ := didDiscoverCharacteristics_eq other characteristics bluetooth
      rw [perform, heq]
      exact ⟨hdiscovered, hpending⟩
  | _ => exact (sameLinks_perform bluetooth rfl).settled ⟨hdiscovered, hpending⟩

theorem connectedPeripherals_didConnectPeripheral (bluetooth : AppleBluetooth)
    (peripheral : CBPeripheral) :
    (perform bluetooth (.didConnectPeripheral peripheral)).connectedPeripherals =
      bluetooth.connectedPeripherals.insert peripheral.UUIDString peripheral := rfl

theorem linked_didConnectPeripheral (bluetooth : AppleBluetooth) (peripheral : CBPeripheral) :
    (perform bluetooth (.didConnectPeripheral peripheral)).centralManager.linked =
      peripheral :: bluetooth.centralManager.linked := rfl

structure Bookkeeping (bluetooth : AppleBluetooth) : Prop where
  pending : ∀ peripheral ∈ bluetooth.centralManager.pending,
    peripheral ∈ bluetooth.discoveredPeripherals
  linked : ∀ peripheral ∈ bluetooth.centralManager.linked, Settled peripheral bluetooth
  connected : ∀ id peripheral, peripheral ∈ bluetooth.connectedPeripherals.lookup id ↔
    id = peripheral.UUIDString ∧ peripheral ∈ bluetooth.centralManager.linked
  characteristics : ∀ peripheral ∈ bluetooth.peripheralCharacteristics,
    peripheral ∈ bluetooth.centralManager.linked

theorem SameLinks.bookkeeping {bluetooth bluetooth' : AppleBluetooth}
    (h : SameLinks bluetooth bluetooth') (hbooks : Bookkeeping bluetooth) :
    Bookkeeping bluetooth' where
  pending := by
    rw [h.pending, h.discovered]
    exact hbooks.pending
  linked := by
    rw [h.linked]
    exact fun peripheral hlinked => h.settled (hbooks.linked peripheral hlinked)
  connected := by
    rw [h.connected, h.linked]
    exact hbooks.connected
  characteristics := by
    rw [h.characteristics, h.linked]
    exact hbooks.characteristics

section Bookkeeping

variable {bluetooth : AppleBluetooth} (h : Bookkeeping bluetooth) (peripheral : CBPeripheral)
include h

theorem bookkeeping_didDiscoverPeripheral :
    Bookkeeping (didDiscoverPeripheral peripheral bluetooth) := by
  rw [didDiscoverPeripheral]
  split
  · exact h
  · next hnew =>
    refine ⟨fun other hother => ?_, fun other hother => ?_, h.connected, h.characteristics⟩
    · rcases List.mem_cons.mp hother with rfl | hother
      · exact List.mem_append_right _ List.mem_cons_self
      · exact List.mem_append_left _ (h.pending other hother)
    · obtain ⟨hdiscovered, hpending⟩ := h.linked other hother
      have hne : other ≠ peripheral := fun heq => hnew (heq ▸ hdiscovered)
      exact ⟨List.mem_append_left _ hdiscovered, by simp [connectPeripheral, emit, hne, hpending]⟩

theorem bookkeeping_didConnectPeripheral
    (hpending : peripheral ∈ bluetooth.centralManager.pending) :
    Bookkeeping (perform bluetooth (.didConnectPeripheral peripheral)) where
  pending other hother := h.pending other (List.mem_of_mem_filter hother)
  linked other hother := by
    rcases List.mem_cons.mp hother with rfl | hother
    · exact ⟨h.pending _ hpending, fun hmem => by simpa using (List.mem_filter.mp hmem).2⟩
    · obtain ⟨hdiscovered, hnot⟩ := h.linked other hother
      exact ⟨hdiscovered, fun hmem => hnot (List.mem_of_mem_filter hmem)⟩
  connected id other := by
    rw [connectedPeripherals_didConnectPeripheral, linked_didConnectPeripheral]
    by_cases hid : id = peripheral.UUIDString
    · rw [hid, AList.lookup_insert]
      constructor
      · rintro ⟨⟩
        exact ⟨rfl, List.mem_cons_self⟩
      · exact fun hother => congrArg some (UUIDString_injective hother.1)
    · have hne : id = other.UUIDString → other ≠ peripheral := fun heq hsame => hid (hsame ▸ heq)
      rw [AList.lookup_insert_ne hid, h.connected, List.mem_cons]
      exact and_congr_right fun heq => (or_iff_right (hne heq)).symm
  characteristics other hother := List.mem_cons_of_mem _ (h.characteristics other hother)

theorem bookkeeping_didDisconnectPeripheral :
    Bookkeeping (perform bluetooth (.didDisconnectPeripheral peripheral)) where
  pending := h.pending
  linked other hother := h.linked other (List.mem_of_mem_filter hother)
  connected id other := by
    change other ∈ (bluetooth.connectedPeripherals.erase peripheral.UUIDString).lookup id ↔
      id = other.UUIDString ∧ other ∈ bluetooth.centralManager.linked.filter (· ≠ peripheral)
    rw [List.mem_filter, decide_eq_true_iff]
    by_cases hid : id = peripheral.UUIDString
    · rw [hid, AList.lookup_erase]
      refine iff_of_false (fun hnone => by cases hnone) fun hother => ?_
      exact hother.2.2 (UUIDString_injective hother.1.symm)
    · rw [AList.lookup_erase_ne hid, h.connected]
      refine and_congr_right fun heq => (and_iff_left ?_).symm
      exact fun hsame => hid (hsame ▸ heq)
  characteristics other hother := by
    obtain ⟨hmem, hne⟩ := List.mem_filter.mp hother
    exact List.mem_filter.mpr ⟨h.characteristics other hmem, hne⟩

theorem bookkeeping_didFailToConnectPeripheral
    (hpending : peripheral ∈ bluetooth.centralManager.pending) :
    Bookkeeping (perform bluetooth (.didFailToConnectPeripheral peripheral)) where
  pending other hother := by
    obtain ⟨hmem, hne⟩ := List.mem_filter.mp hother
    exact List.mem_filter.mpr ⟨h.pending other hmem, hne⟩
  linked other hother := settled_perform bluetooth (.didFailToConnectPeripheral peripheral) hpending
    (h.linked other hother)
  connected := h.connected
  characteristics := h.characteristics

theorem bookkeeping_didDiscoverCharacteristics (characteristics : List Bytes)
    (hlinked : peripheral ∈ bluetooth.centralManager.linked) :
    Bookkeeping (didDiscoverCharacteristics peripheral characteristics bluetooth) := by
  obtain ⟨events, heq⟩ := didDiscoverCharacteristics_eq peripheral characteristics bluetooth
  rw [heq]
  refine ⟨h.pending, h.linked, h.connected, fun other hother => ?_⟩
  dsimp only at hother ⊢
  split at hother
  · rcases List.mem_insert_iff.mp hother with rfl | hother
    · exact hlinked
    · exact h.characteristics other hother
  · exact h.characteristics other hother

end Bookkeeping

theorem bookkeeping_perform (bluetooth : AppleBluetooth) (action : Action)
    (hreported : Reported bluetooth action) (h : Bookkeeping bluetooth) :
    Bookkeeping (perform bluetooth action) := by
  cases action with
  | didDiscoverPeripheral peripheral => exact bookkeeping_didDiscoverPeripheral h peripheral
  | didConnectPeripheral peripheral =>
      exact bookkeeping_didConnectPeripheral h peripheral hreported
  | didDisconnectPeripheral peripheral => exact bookkeeping_didDisconnectPeripheral h peripheral
  | didFailToConnectPeripheral peripheral =>
      exact bookkeeping_didFailToConnectPeripheral h peripheral hreported
  | didDiscoverCharacteristics peripheral characteristics =>
      exact bookkeeping_didDiscoverCharacteristics h peripheral characteristics hreported
  | _ => exact (sameLinks_perform bluetooth rfl).bookkeeping h

theorem bookkeeping_start : Bookkeeping {} where
  pending _ h := absurd h List.not_mem_nil
  linked _ h := absurd h List.not_mem_nil
  connected id peripheral := by simp
  characteristics _ h := absurd h List.not_mem_nil

section Run

variable {actions : List Action} (hexec : coreBluetooth.Execution {} actions)
  (peripheral : CBPeripheral)
include hexec

theorem bookkeeping_run : Bookkeeping (coreBluetooth.run {} actions) :=
  TransitionSystem.invariant_run bookkeeping_perform hexec bookkeeping_start

theorem count_didConnectPeripheral_le_one :
    actions.count (.didConnectPeripheral peripheral) ≤ 1 := by
  have hsettle : ∀ bluetooth, Reported bluetooth (.didConnectPeripheral peripheral) →
      Bookkeeping bluetooth →
        Settled peripheral (perform bluetooth (.didConnectPeripheral peripheral)) :=
    fun bluetooth hpending hbooks =>
      (bookkeeping_perform _ _ hpending hbooks).linked peripheral List.mem_cons_self
  have hkeep : ∀ bluetooth action, Reported bluetooth action → Settled peripheral bluetooth →
      Settled peripheral (perform bluetooth action) := settled_perform
  have hnever : ∀ bluetooth, Settled peripheral bluetooth →
      ¬ Reported bluetooth (.didConnectPeripheral peripheral) :=
    fun _ hsettled hpending => hsettled.2 hpending
  exact TransitionSystem.count_le_one bookkeeping_perform hsettle hkeep hnever hexec
    bookkeeping_start

theorem linked_run_of_since :
    peripheral ∈ (coreBluetooth.run {} actions).centralManager.linked ↔
      coreBluetooth.SinceStep (fun _ action => action = .didConnectPeripheral peripheral)
        (fun _ action => action ≠ .didDisconnectPeripheral peripheral) {} actions := by
  rw [TransitionSystem.run_iff_sinceStep (P := fun bluetooth : AppleBluetooth =>
      peripheral ∈ bluetooth.centralManager.linked)
    (fun bluetooth action _ _ => mem_linked_perform bluetooth action peripheral)
    bookkeeping_perform hexec bookkeeping_start]
  exact or_iff_right fun h => List.not_mem_nil h.1

theorem not_gone_before_connecting {before after : List Action}
    (hsplit : actions = before ++ .didConnectPeripheral peripheral :: after) :
    .didDisconnectPeripheral peripheral ∉ before := by
  intro hgone
  obtain ⟨first, second, rfl⟩ := List.append_of_mem hgone
  have hcount := count_didConnectPeripheral_le_one hexec peripheral
  subst hsplit
  have hbefore := (TransitionSystem.execution_append.mp hexec).1
  obtain ⟨hfirst, hlinked, -⟩ := TransitionSystem.execution_append.mp hbefore
  obtain ⟨_, _, _, rfl, rfl, -⟩ := (linked_run_of_since hfirst peripheral).mp hlinked
  simp only [List.count_append, List.count_cons_self] at hcount
  omega

end Run

theorem linked_run_iff {actions : List Action} (hexec : coreBluetooth.Execution {} actions)
    (peripheral : CBPeripheral) :
    peripheral ∈ (coreBluetooth.run {} actions).centralManager.linked ↔
      .didConnectPeripheral peripheral ∈ actions ∧
        .didDisconnectPeripheral peripheral ∉ actions := by
  rw [linked_run_of_since hexec peripheral]
  constructor
  · rintro ⟨before, action, after, rfl, rfl, hkeeps⟩
    have hafter := TransitionSystem.allSteps_const.mp hkeeps
    refine ⟨by simp, fun hgone => ?_⟩
    rcases List.mem_append.mp hgone with hbefore | hbehind
    · exact not_gone_before_connecting hexec peripheral rfl hbefore
    · exact hafter _ hbehind rfl
  · rintro ⟨hconnect, hnever⟩
    obtain ⟨before, after, rfl⟩ := List.append_of_mem hconnect
    refine ⟨before, _, after, rfl, rfl, TransitionSystem.allSteps_const.mpr fun action hmem => ?_⟩
    rintro rfl
    exact hnever (List.mem_append_right _ hmem)

theorem characteristic_run_iff {actions : List Action}
    (hexec : coreBluetooth.Execution {} actions) (peripheral : CBPeripheral) :
    peripheral ∈ (coreBluetooth.run {} actions).peripheralCharacteristics ↔
      (∃ action ∈ actions, action.finds peripheral) ∧
        .didDisconnectPeripheral peripheral ∉ actions := by
  rw [TransitionSystem.run_iff_sinceStep (P := fun bluetooth : AppleBluetooth =>
      peripheral ∈ bluetooth.peripheralCharacteristics)
    (fun bluetooth action _ _ => mem_characteristics_perform bluetooth action peripheral)
    bookkeeping_perform hexec bookkeeping_start, or_iff_right fun h => List.not_mem_nil h.1]
  constructor
  · rintro ⟨before, action, after, rfl, hfinds, hkeeps⟩
    have hafter := TransitionSystem.allSteps_const.mp hkeeps
    refine ⟨⟨action, by simp, hfinds⟩, fun hgone => ?_⟩
    rcases List.mem_append.mp hgone with hbefore | hbehind
    · obtain ⟨hexec', hreported, -⟩ := TransitionSystem.execution_append.mp hexec
      have hlinked : peripheral ∈ (coreBluetooth.run {} before).centralManager.linked := by
        cases action with
        | didDiscoverCharacteristics other characteristics => exact hfinds.1 ▸ hreported
        | _ => exact hfinds.elim
      exact ((linked_run_iff hexec' peripheral).mp hlinked).2 hbefore
    · exact hafter _ hbehind rfl
  · rintro ⟨⟨action, hmem, hfinds⟩, hnever⟩
    obtain ⟨before, after, rfl⟩ := List.append_of_mem hmem
    refine ⟨before, action, after, rfl, hfinds, TransitionSystem.allSteps_const.mpr ?_⟩
    rintro other hother rfl
    exact hnever (List.mem_append_right _ hother)

/-- A device connects once in a run, and its link is the only one that the node has to it: it is
connected at the end exactly if it has connected and has never gone. -/
theorem connected_iff_never_gone {actions : List Action}
    (hexec : coreBluetooth.Execution {} actions) (peripheral : CBPeripheral) :
    actions.count (.didConnectPeripheral peripheral) ≤ 1 ∧
      (peripheral.UUIDString ∈ (coreBluetooth.run {} actions).connectedPeripherals ↔
        .didConnectPeripheral peripheral ∈ actions ∧
          .didDisconnectPeripheral peripheral ∉ actions) := by
  refine ⟨count_didConnectPeripheral_le_one hexec peripheral, ?_⟩
  rw [← linked_run_iff hexec peripheral, ← AList.lookup_isSome, Option.isSome_iff_exists]
  constructor
  · rintro ⟨other, hlookup⟩
    obtain ⟨hid, hlinked⟩ := ((bookkeeping_run hexec).connected _ other).mp hlookup
    exact UUIDString_injective hid ▸ hlinked
  · exact fun hlinked => ⟨peripheral, ((bookkeeping_run hexec).connected _ _).mpr ⟨rfl, hlinked⟩⟩

def passerby : CBPeripheral := ⟨Vector.replicate 16 0xAB⟩

def passing : List Action :=
  [.centralManagerState true, .mainQueue, .didDiscoverPeripheral passerby,
    .didConnectPeripheral passerby, .didDisconnectPeripheral passerby,
    .didDiscoverPeripheral passerby]

theorem execution_passing : coreBluetooth.Execution {} passing :=
  ⟨trivial, trivial, ⟨rfl, rfl⟩, List.mem_cons_self, List.mem_cons_self, ⟨rfl, rfl⟩, trivial⟩

theorem connected_iff_never_gone_passing :
    passing.count (.didConnectPeripheral passerby) ≤ 1 ∧
      (passerby.UUIDString ∈ (coreBluetooth.run {} passing).connectedPeripherals ↔
        .didConnectPeripheral passerby ∈ passing ∧ .didDisconnectPeripheral passerby ∉ passing) :=
  connected_iff_never_gone execution_passing passerby

/-- What a broadcast asks Core Bluetooth for. -/
def broadcast (data : Bytes) (bluetooth : AppleBluetooth) : List AppleEvent :=
  (sendPacket data bluetooth).2.trace.drop bluetooth.trace.length

theorem writeAll_eq (data : Bytes) (peripherals : List CBPeripheral)
    (bluetooth : AppleBluetooth) :
    writeAll data peripherals bluetooth = { bluetooth with
      trace := bluetooth.trace ++ (peripherals.filter fun peripheral =>
        CanWrite peripheral bluetooth).map (.writeValue data) } := by
  induction peripherals generalizing bluetooth with
  | nil => simp [writeAll]
  | cons peripheral peripherals ih =>
      by_cases hwrite : CanWrite peripheral bluetooth
      · have hrest := ih (emit (.writeValue data peripheral) bluetooth)
        rw [writeAll, List.foldl_cons, if_pos hwrite, List.filter_cons_of_pos (by simpa using hwrite)]
        refine hrest.trans ?_
        dsimp only [emit]
        rw [List.append_assoc]
        rfl
      · rw [writeAll, List.foldl_cons, if_neg hwrite, List.filter_cons_of_neg (by simpa using hwrite)]
        exact ih bluetooth

theorem broadcast_eq {bluetooth : AppleBluetooth} (hready : bluetooth.ready = true)
    (data : Bytes) :
    broadcast data bluetooth =
      (bluetooth.allValues.filter fun peripheral => CanWrite peripheral bluetooth).map
          (.writeValue data) ++
        if bluetooth.mutableCharacteristic = true ∧ bluetooth.subscribedCentrals.length > 0 then
          [.updateValue data bluetooth.subscribedCentrals]
        else [] := by
  rw [broadcast, sendPacket, if_pos hready, writeAll_eq]
  dsimp only
  rw [updateSubscribers]
  split
  · rw [emit, List.append_assoc, List.drop_left]
  · rw [List.drop_left, List.append_nil]

theorem broadcast_of_not_ready {bluetooth : AppleBluetooth} (hready : bluetooth.ready = false)
    (data : Bytes) : broadcast data bluetooth = [] := by
  rw [broadcast, sendPacket, hready, if_neg Bool.false_ne_true, List.drop_length]

theorem mem_allValues {bluetooth : AppleBluetooth} (h : Bookkeeping bluetooth)
    {peripheral : CBPeripheral} (hlinked : peripheral ∈ bluetooth.centralManager.linked) :
    peripheral ∈ bluetooth.allValues :=
  List.mem_map.mpr ⟨⟨_, peripheral⟩,
    AList.mem_lookup_iff.mp ((h.connected _ peripheral).mpr ⟨rfl, hlinked⟩), rfl⟩

theorem writeValue_mem_broadcast_iff {bluetooth : AppleBluetooth} (h : Bookkeeping bluetooth)
    (data : Bytes) (peripheral : CBPeripheral) :
    .writeValue data peripheral ∈ broadcast data bluetooth ↔
      bluetooth.ready = true ∧ CanWrite peripheral bluetooth := by
  cases hready : bluetooth.ready with
  | false =>
      rw [broadcast_of_not_ready hready]
      simp
  | true =>
      have hvalues : CanWrite peripheral bluetooth → peripheral ∈ bluetooth.allValues :=
        fun hwrite => mem_allValues h (h.characteristics peripheral hwrite.1)
      rw [broadcast_eq hready, List.mem_append]
      split <;> simp <;> exact hvalues

/-- A packet for everybody is written to the devices whose characteristic has been found and
that have never gone, as far as their links are up. -/
theorem broadcast_reaches_iff {actions : List Action}
    (hexec : coreBluetooth.Execution {} actions) (peripheral : CBPeripheral) (data : Bytes) :
    .writeValue data peripheral ∈ broadcast data (coreBluetooth.run {} actions) ↔
      (coreBluetooth.run {} actions).ready = true ∧
        (coreBluetooth.run {} actions).isConnected peripheral = true ∧
          (∃ action ∈ actions, action.finds peripheral) ∧
            .didDisconnectPeripheral peripheral ∉ actions := by
  rw [writeValue_mem_broadcast_iff (bookkeeping_run hexec), CanWrite,
    characteristic_run_iff hexec peripheral]
  tauto

def arrival : List Action :=
  [.centralManagerState true, .peripheralManagerState true, .mainQueue, .initialized,
    .didDiscoverPeripheral passerby, .stateChanged passerby true, .didConnectPeripheral passerby,
    .didDiscoverCharacteristics passerby [CHARACTERISTIC_UUID]]

theorem execution_arrival : coreBluetooth.Execution {} arrival :=
  ⟨trivial, trivial, trivial, ⟨rfl, rfl⟩, ⟨rfl, rfl⟩, trivial, List.mem_cons_self,
    List.mem_cons_self, trivial⟩

theorem broadcast_reaches_iff_arrival :
    .writeValue [1, 2, 3] passerby ∈ broadcast [1, 2, 3] (coreBluetooth.run {} arrival) ↔
      (coreBluetooth.run {} arrival).ready = true ∧
        (coreBluetooth.run {} arrival).isConnected passerby = true ∧
          (∃ action ∈ arrival, action.finds passerby) ∧
            .didDisconnectPeripheral passerby ∉ arrival :=
  broadcast_reaches_iff execution_arrival passerby [1, 2, 3]

end AppleBluetooth

end Bitchat
