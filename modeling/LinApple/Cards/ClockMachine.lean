import LinApple.Cards.ClockFirmware
import LinApple.Slots.Answers
import LinApple.Slots.CardRom
import LinApple.Slots.Registration

/-!
# A machine with a clock card

The firmware was executed in a machine of which nothing was known but that the card is in it. Here
is the emulator's: the processor reads the live image, its accesses to the I/O space go through
the tables to the memory's own functions and to the cards, and the clock card is entered in them.
What the others in the machine do is left open, and the firmware does not reach them.

`ClockMachine.Has` is what the machine must be like. The slot's page shows the card's ROM, a read
of it goes to `io_read_cxxx`, the slot's sixteen addresses go over the bridge to the card, and the
page the firmware writes to is written through to the image. All of that can be had: a card that
is registered in an empty slot is there (`has_peripheralRegister`), so the conditions are not
about a machine that nobody could build.

What the run is followed through is a picture of the machine and not the machine itself
(`clockView`): the card, the host's time and memory below the end of the buffer. Fetching the
firmware changes more than that, for a read of a slot's page selects the slot's expansion ROM, and
every access of a card has the cycles counted. Neither shows in the picture and neither can reach
an interrupt line, which is what lets the 108 instructions be taken one behind the other.

The theorem is for either processor, any slot but slot 0, and any contents of the registers and of
memory. It says how many instructions it takes, where the processor is then, and that nothing
below the end of the buffer has changed but the buffer. Since the card is still there at the end,
it can be called again.
-/

namespace LinApple.Cards

open Memory Slots

/-- **The machine around the processor**: the memory and the cards' entries, the clock card, the
host's time, and all the rest. -/
structure ClockMachine (I H R : Type) where
  /-- The memory, the tables, and who is in the slots. -/
  slots : Slots.Host I H
  /-- The card. -/
  card : ClockCard
  /-- The time the host would give. -/
  now : Option HostLocalTime
  /-- The other cards, and the rest of the machine. -/
  rest : R

namespace ClockMachine

variable {I H R : Type}

/-- The memory. -/
def memory (w : ClockMachine I H R) : MemoryInstance := w.slots.io.memory

/-- The machine with another memory. -/
def withMemory (w : ClockMachine I H R) (m : MemoryInstance) : ClockMachine I H R :=
  { w with slots := { w.slots with io := { w.slots.io with memory := m } } }

/-- A byte of the live image is replaced. -/
def setImage (w : ClockMachine I H R) (a : UInt16) (v : UInt8) : ClockMachine I H R :=
  w.withMemory { w.memory with mem := setByte w.memory.mem (pageOf a) (offsetOf a) v }

end ClockMachine

section Bus

variable {I H R : Type} [DecidableEq I] [DecidableEq H] (ty : Apple2Type) (inst : I) (handler : H)
  (floatingBus : ClockMachine I H R → UInt32 → UInt8)
  (other : ClockMachine I H R → Cpu.IoAccess → Route I H →
    UInt8 × ClockMachine I H R × List Cpu.HostCall)

/-- What a route does: the clock card's function is known. The bridge to it has the cycles counted
before it calls it. -/
def answerRoute (w : ClockMachine I H R) (access : Cpu.IoAccess) (route : Route I H) :
    UInt8 × ClockMachine I H R × List Cpu.HostCall :=
  match route with
  | .card i f =>
    if i = some inst ∧ f = handler then
      let r := w.card.ioRead access.addr w.now (floatingBus w access.executedCycles)
      (r.1, { w with card := r.2 }, [.calcCycles])
    else other w access (.card i f)
  | route => other w access route

/-- **The machine as the processor reaches it.** -/
def clockBus : Cpu.Bus (ClockMachine I H R) where
  mem w i := if i < 0x10000 then w.memory.memByte (UInt16.ofNat i) else 0
  poke w i v := w.setImage (UInt16.ofNat i) v
  markDirty w p := w.withMemory
    { w.memory with memdirty := Function.update w.memory.memdirty (Fin.ofNat 256 p.toNat) 0xFF }
  store w a v := match w.memory.memwrite (pageOf a) with
    | .live => some (w.setImage a v)
    | .store l => some (w.withMemory
      { w.memory with stores := setByte w.memory.stores l (offsetOf a) v })
    | .null => none
  io w access :=
    let r := w.slots.access ty access.addr access.isWrite
    match r.2 with
    | .byte v => (v, { w with slots := r.1 }, [])
    | .route route => answerRoute inst handler floatingBus other { w with slots := r.1 } access route
  requests _ := []

/-- **The clock card is in a slot**, and its page is shown; the buffer is written through. -/
structure ClockMachine.Has (slot : Slot) (w : ClockMachine I H R) : Prop where
  /-- The page. -/
  page : w.memory.mem (slotPage slot) = fun o => (slotRom slot).getD o.val 0
  /-- `io_read_cxxx` reads it. -/
  cx : w.slots.io.ioRead (0x100 + slot.val) = some .cxxx
  /-- The bridge is entered. -/
  c0 : ∀ r, r < 16 → w.slots.io.ioRead (0x80 + 0x10 * slot.val + r) = some .slotC0
  /-- It comes to the card. -/
  active : slotRoute (w.slots.active slot) (·.c0 false) = .card (some inst) handler
  /-- The buffer's page is the image's. -/
  buffer : w.memory.memwrite 2 = .live

/-- What the firmware sees of it. -/
def ClockMachine.clockView (w : ClockMachine I H R) : ClockView where
  card := w.card
  now := w.now
  ram i := if i < 0x300 then w.memory.memByte (UInt16.ofNat i) else 0

/-- **What can be seen of the machine.** -/
def clockSetting (slot : Slot) :
    Cpu.Setting (clockBus ty inst handler floatingBus other) ClockView where
  Ok w := w.Has inst handler slot
  view w := w.clockView
  requests _ := rfl

end Bus

/-! ## Addresses -/

theorem isIoRegion_romAddr {slot : Slot} {i : Nat} (hi : i < 256) :
    Cpu.isIoRegion (romAddr slot i) = true := by
  have hall : ∀ (slot : Slot) (i : Fin 256), Cpu.isIoRegion (romAddr slot i.val) = true := by
    decide +kernel
  exact hall slot ⟨i, hi⟩

theorem isIoRegion_registerAddr {slot : Slot} {r : Nat} (hr : r < 16) :
    Cpu.isIoRegion (registerAddr slot r) = true := by
  have hall : ∀ (slot : Slot) (r : Fin 16), Cpu.isIoRegion (registerAddr slot r.val) = true := by
    decide
  exact hall slot ⟨r, hr⟩

theorem toNat_registerAddr (slot : Slot) {r : Nat} (hr : r < 16) :
    (registerAddr slot r).toNat = 0xC080 + 0x10 * slot.val + r := by
  unfold registerAddr
  rw [UInt16.toNat_ofNat']
  exact Nat.mod_eq_of_lt (by omega)

theorem pageOf_romAddr (slot : Slot) {i : Nat} (hi : i < 256) :
    pageOf (romAddr slot i) = slotPage slot := by
  apply Fin.ext
  rw [pageOf_val, toNat_romAddr slot hi]
  show _ = 0xC0 + slot.val
  omega

theorem offsetOf_romAddr (slot : Slot) {i : Nat} (hi : i < 256) :
    offsetOf (romAddr slot i) = ⟨i, hi⟩ := by
  apply Fin.ext
  show (romAddr slot i).toNat % 256 = i
  rw [toNat_romAddr slot hi]
  omega

/-! ## The slot's page -/

section SelectRom

variable (io : IoMemory)

/-- **The ROM logic leaves alone where is written.** -/
theorem memwrite_selectRom (ty : Apple2Type) (a : UInt16) :
    (io.selectRom ty a).memory.memwrite = io.memory.memwrite := by
  have hoff : (if a = 0xCFFF then io.disableExpansionRom else io).memory.memwrite
      = io.memory.memwrite := by
    unfold IoMemory.disableExpansionRom
    split_ifs <;> rfl
  rw [← hoff]
  unfold IoMemory.selectRom
  dsimp only
  generalize (if a = 0xCFFF then io.disableExpansionRom else io) = t
  have hslot (slot : Slot) : (t.selectSlot slot).memory.memwrite = t.memory.memwrite := by
    unfold IoMemory.selectSlot
    split_ifs <;> rfl
  have hexpansion : t.enableExpansionRom.memory.memwrite = t.memory.memwrite := by
    unfold IoMemory.enableExpansionRom
    split
    · rfl
    · split
      · rfl
      · split_ifs <;> rfl
  have hinternal : t.enableInternal.memory.memwrite = t.memory.memwrite := by
    unfold IoMemory.enableInternal
    split_ifs <;> rfl
  split_ifs
  · exact hslot _
  · exact hexpansion
  · exact hinternal
  · rfl
  · exact hinternal

end SelectRom

section Machine

variable {I H R : Type} {ty : Apple2Type} {inst : I} {handler : H}
  {floatingBus : ClockMachine I H R → UInt32 → UInt8}
  {other : ClockMachine I H R → Cpu.IoAccess → Route I H →
    UInt8 × ClockMachine I H R × List Cpu.HostCall}
  {slot : Slot} {w : ClockMachine I H R}

/-- What reading the slot's page changes. -/
def ClockMachine.selectRom (w : ClockMachine I H R) (ty : Apple2Type) (a : UInt16) :
    ClockMachine I H R :=
  { w with slots := { w.slots with io := w.slots.io.selectRom ty a } }

namespace ClockMachine.Has

/-- **The slot's page is read from the ROM.** -/
theorem access_romAddr (h : w.Has inst handler slot) (hslot : slot ≠ 0) {i : Nat} (hi : i < 256) :
    w.slots.access ty (romAddr slot i) false
      = ((w.selectRom ty (romAddr slot i)).slots, .byte ((slotRom slot).getD i 0)) := by
  have hval : slot.val ≠ 0 := fun hzero => hslot (Fin.ext hzero)
  have hnat := toNat_romAddr slot hi
  have hio : Memory.isIoRegion (romAddr slot i) = true := by
    refine isIoPage_iff.2 ?_
    rw [pageOf_val, hnat]
    omega
  have hindex : tableIndex (romAddr slot i) = 0x100 + slot.val := by
    unfold tableIndex
    rw [hnat, if_neg (by omega)]
    omega
  -- the card has no handler for its ROM page, so the read goes to the page itself
  have hroute : w.slots.route ty (romAddr slot i) false = .rom := by
    unfold Host.route
    rw [hindex]
    show w.slots.resolve ty _ false (w.slots.io.ioRead (0x100 + slot.val)) = _
    rw [h.cx]
    rfl
  have haddr : IoMemory.isSlotAddr (romAddr slot i) = true := by
    refine decide_eq_true (UInt16.lt_iff_toNat_lt.2 ?_)
    rw [hnat]
    show _ < 0xC800
    omega
  have hpage := (samePage_selectRom (CardSlots.isExpansionPage_slotPage slot) w.slots.io ty
    (romAddr slot i)).mem
  have hbyte : (w.slots.io.selectRom ty (romAddr slot i)).memory.memByte (romAddr slot i)
      = (slotRom slot).getD i 0 := by
    unfold MemoryInstance.memByte
    rw [pageOf_romAddr slot hi, offsetOf_romAddr slot hi, hpage]
    exact congrFun h.page ⟨i, hi⟩
  have hrom : w.slots.accessRom ty (romAddr slot i) false
      = ((w.selectRom ty (romAddr slot i)).slots, .byte ((slotRom slot).getD i 0)) := by
    unfold Host.accessRom IoMemory.ioReadCxxx
    dsimp only
    rw [if_neg Bool.false_ne_true, haddr, if_neg (by simp), hbyte]
    rfl
  rw [w.slots.access_eq ty hio false, hroute, hrom]
  split_ifs with _ hno
  · rfl
  · rfl
  · exact absurd rfl hno

/-- **The registers are the card's.** -/
theorem access_registerAddr (h : w.Has inst handler slot) {r : Nat} (hr : r < 16) :
    w.slots.access ty (registerAddr slot r) false
      = (w.slots, .route (.card (some inst) handler)) := by
  have hnat := toNat_registerAddr slot hr
  have hio : Memory.isIoRegion (registerAddr slot r) = true := by
    refine isIoPage_iff.2 ?_
    rw [pageOf_val, hnat]
    omega
  have hpage : (registerAddr slot r).toNat / 0x100 = 0xC0 := by omega
  have hindex : tableIndex (registerAddr slot r) = 0x80 + 0x10 * slot.val + r := by
    unfold tableIndex
    rw [if_pos hpage, hnat]
    omega
  have hslot : (Fin.ofNat 8 ((registerAddr slot r).toNat / 0x10) : Slot) = slot := by
    apply Fin.ext
    show _ % 8 = slot.val
    omega
  have hroute : w.slots.route ty (registerAddr slot r) false = .card (some inst) handler := by
    unfold Host.route
    rw [hindex]
    show w.slots.resolve ty _ false (w.slots.io.ioRead _) = _
    rw [h.c0 r hr]
    show slotRoute (w.slots.active (Fin.ofNat 8 ((registerAddr slot r).toNat / 0x10))) _ = _
    rw [hslot, h.active]
  rw [w.slots.access_eq ty hio false, hroute, if_neg fun hno => hno.1 hpage]
  rfl

/-- Reading the slot's page leaves the card where it is. -/
theorem selectRom (h : w.Has inst handler slot) (a : UInt16) :
    (w.selectRom ty a).Has inst handler slot where
  page := (samePage_selectRom (CardSlots.isExpansionPage_slotPage slot) w.slots.io ty a).mem.trans h.page
  cx := (congrFun (tables_selectRom w.slots.io a).1 _).trans h.cx
  c0 r hr := (congrFun (tables_selectRom w.slots.io a).1 _).trans (h.c0 r hr)
  active := h.active
  buffer := (congrFun (memwrite_selectRom w.slots.io ty a) 2).trans h.buffer

end ClockMachine.Has

/-- Nothing of it can be seen. -/
theorem clockView_selectRom (w : ClockMachine I H R) (ty : Apple2Type) (a : UInt16) :
    (w.selectRom ty a).clockView = w.clockView := by
  unfold ClockMachine.clockView
  congr 1
  funext i
  split_ifs with hi
  · have hpage : isExpansionPage (pageOf (UInt16.ofNat i)) = false := by
      have hval : (pageOf (UInt16.ofNat i)).val < 0xC8 := by
        rw [pageOf_val, UInt16.toNat_ofNat']
        omega
      unfold isExpansionPage
      rw [decide_eq_false (by omega), Bool.false_and]
    exact congrFun (samePage_selectRom hpage w.slots.io ty a).mem _
  · rfl

/-! ## The buffer -/

/-- A byte of the image that is replaced. -/
theorem memByte_setImage (w : ClockMachine I H R) (a b : UInt16) (v : UInt8) :
    (w.setImage a v).memory.memByte b = if b = a then v else w.memory.memByte b := by
  have hbyte : (w.setImage a v).memory.memByte b
      = setByte w.memory.mem (pageOf a) (offsetOf a) v (pageOf b) (offsetOf b) := rfl
  rw [hbyte]
  by_cases hab : b = a
  · rw [if_pos hab, hab, setByte_self]
  · rw [if_neg hab]
    by_cases hpage : pageOf b = pageOf a
    · have hoffset : offsetOf b ≠ offsetOf a := by
        intro hsame
        apply hab
        have hp := congrArg Fin.val hpage
        have ho := congrArg Fin.val hsame
        rw [pageOf_val, pageOf_val] at hp
        have ho' : b.toNat % 256 = a.toNat % 256 := ho
        exact UInt16.toNat_inj.1 (by omega)
      rw [hpage, setByte_page_self, Function.update_of_ne hoffset, ← hpage]
      rfl
    · rw [setByte_page_of_ne _ _ _ hpage]
      rfl

/-- An address of the buffer. -/
theorem toNat_bufferAddr (i : Fin 256) : (UInt16.ofNat (0x200 + i.val)).toNat = 0x200 + i.val := by
  rw [UInt16.toNat_ofNat']
  exact Nat.mod_eq_of_lt (by omega)

theorem pageOf_bufferAddr (i : Fin 256) : pageOf (UInt16.ofNat (0x200 + i.val)) = 2 := by
  apply Fin.ext
  rw [pageOf_val, toNat_bufferAddr]
  show _ = 2
  omega

/-- Writing into the buffer leaves the card where it is. -/
theorem ClockMachine.Has.setImage (h : w.Has inst handler slot) (i : Fin 256) (v : UInt8) :
    (w.setImage (UInt16.ofNat (0x200 + i.val)) v).Has inst handler slot where
  page := by
    have hne : slotPage slot ≠ pageOf (UInt16.ofNat (0x200 + i.val)) := by
      rw [pageOf_bufferAddr]
      intro heq
      have hbounds := (CardSlots.slotPage_bounds slot).1
      rw [heq] at hbounds
      exact absurd hbounds (by decide)
    exact (setByte_page_of_ne _ _ _ hne).trans h.page
  cx := h.cx
  c0 := h.c0
  active := h.active
  buffer := h.buffer

theorem clockView_setImage (w : ClockMachine I H R) (i : Fin 256) (v : UInt8) :
    (w.setImage (UInt16.ofNat (0x200 + i.val)) v).clockView
      = w.clockView.store (0x200 + i.val) v := by
  unfold ClockMachine.clockView ClockView.store
  congr 1
  funext j
  dsimp only
  by_cases hj : j = 0x200 + i.val
  · rw [hj, Function.update_self, if_pos (by omega), memByte_setImage, if_pos rfl]
  · rw [Function.update_of_ne hj]
    split_ifs with hlow
    · rw [memByte_setImage, if_neg]
      intro heq
      have hnat := congrArg UInt16.toNat heq
      rw [toNat_bufferAddr, UInt16.toNat_ofNat'] at hnat
      omega
    · rfl

/-! ## The firmware -/

variable [DecidableEq I] [DecidableEq H]

/-- A register is read. -/
theorem io_registerAddr (h : w.Has inst handler slot) {r : Nat} (hr : r < 16)
    {access : Cpu.IoAccess} (haddr : access.addr = registerAddr slot r)
    (hread : access.isWrite = false) :
    (clockBus ty inst handler floatingBus other).io w access
      = ((w.card.ioRead (registerAddr slot r) w.now (floatingBus w access.executedCycles)).1,
        { w with card := (w.card.ioRead (registerAddr slot r) w.now
          (floatingBus w access.executedCycles)).2 }, [.calcCycles]) := by
  show (match (w.slots.access ty access.addr access.isWrite).2 with
    | .byte v => _
    | .route route => _) = _
  rw [haddr, hread, h.access_registerAddr hr]
  dsimp only
  unfold answerRoute
  dsimp only
  rw [if_pos ⟨rfl, rfl⟩, haddr]

theorem offset_registerAddr (slot : Slot) {r : Nat} (hr : r < 16) :
    (registerAddr slot r &&& 0x0F).toNat = r := by
  have hand : (registerAddr slot r &&& 0x0F).toNat = (registerAddr slot r).toNat % 16 := by
    rw [UInt16.toNat_and]
    exact Nat.and_two_pow_sub_one_eq_mod _ 4
  rw [hand, toNat_registerAddr slot hr]
  omega

/-- The slot's page has the card's ROM, for fetches and for reads. -/
theorem code_slotRom (hslot : slot ≠ 0) (v : ClockView) :
    (clockSetting ty inst handler floatingBus other slot).Code v (romAddr slot 0)
      (slotRom slot) := by
  intro k b hb
  have hlength : (slotRom slot).length = 256 := by
    unfold slotRom
    rw [List.length_set, List.length_append, List.length_replicate]
    rfl
  have hk : k < 256 := hlength ▸ (List.getElem?_eq_some_iff.1 hb).1
  have hbyte : (slotRom slot).getD k 0 = b := by
    rw [List.getD_eq_getElem?_getD, hb]
    rfl
  have hpc : romAddr slot 0 + UInt16.ofNat k = romAddr slot k := by
    rw [romAddr_add, Nat.zero_add]
  rw [hpc]
  refine ⟨Cpu.Setting.reads_of_io (isIoRegion_romAddr hk) ?_, ?_⟩
  · intro w hok hview access haddr hread
    refine ⟨w.selectRom ty (romAddr slot k), [], ?_, fun _ => List.not_mem_nil,
      hok.selectRom _, (clockView_selectRom w ty _).trans hview⟩
    show (match (w.slots.access ty access.addr access.isWrite).2 with
      | .byte v => _
      | .route route => _) = _
    rw [haddr, hread, hok.access_romAddr hslot hk]
    dsimp only
    rw [hbyte]
    rfl
  · intro w hok _
    have haddr : UInt16.ofNat ((romAddr slot 0).toNat + k) = romAddr slot k := by
      rw [toNat_romAddr slot (by decide)]
      rfl
    have hlow : (romAddr slot 0).toNat + k < 0x10000 := by
      rw [toNat_romAddr slot (by decide)]
      omega
    show (if _ then w.memory.memByte _ else 0) = b
    rw [if_pos hlow, haddr]
    unfold MemoryInstance.memByte
    rw [pageOf_romAddr slot hk, offsetOf_romAddr slot hk, hok.page]
    exact hbyte

/-- A register is read over the bridge, which changes nothing that is seen. -/
theorem reads_digit (v : ClockView) (r : Fin 10) :
    (clockSetting ty inst handler floatingBus other slot).Reads v (registerAddr slot r)
      (v.card.latches r) v := by
  refine Cpu.Setting.reads_of_io (isIoRegion_registerAddr (by omega)) ?_
  intro w hok hview access haddr hread
  have hval : w.card.ioRead (registerAddr slot r) w.now (floatingBus w access.executedCycles)
      = (v.card.latches r, w.card) := by
    have hcard : w.card = v.card := congrArg ClockView.card hview
    unfold ClockCard.ioRead
    dsimp only
    rw [dif_pos (by rw [offset_registerAddr slot (by omega)]; exact r.isLt), hcard]
    congr 2
    exact Fin.ext (offset_registerAddr slot (by omega))
  refine ⟨w, [.calcCycles], ?_, by simp, hok, hview⟩
  rw [io_registerAddr hok (by omega) haddr hread, hval]

/-- A read of the last register takes the host's time over. -/
theorem touches_strobe (v : ClockView) :
    (clockSetting ty inst handler floatingBus other slot).Touches v (registerAddr slot 15)
      v.strobe := by
  refine Cpu.Setting.touches_of_io (isIoRegion_registerAddr (by decide)) ?_
  intro w hok hview access haddr hread
  have hval : w.card.ioRead (registerAddr slot 15) w.now (floatingBus w access.executedCycles)
      = (floatingBus w access.executedCycles, w.card.updateLatches w.now) := by
    unfold ClockCard.ioRead
    dsimp only
    rw [offset_registerAddr slot (by decide)]
    rfl
  refine ⟨floatingBus w access.executedCycles,
    { w with card := w.card.updateLatches w.now }, [.calcCycles], ?_, by simp, ?_, ?_⟩
  · rw [io_registerAddr hok (by decide) haddr hread, hval]
  · exact ⟨hok.page, hok.cx, hok.c0, hok.active, hok.buffer⟩
  · rw [← hview]
    rfl

/-- The firmware's page is written through to the image. -/
theorem writes_buffer (v : ClockView) (i : Fin 256) (b : UInt8) :
    (clockSetting ty inst handler floatingBus other slot).Writes v (UInt16.ofNat (0x200 + i.val)) b
      (v.store (0x200 + i.val) b) := by
  intro h hs pc x
  let bus := clockBus ty inst handler floatingBus other
  let marked := bus.markDirty h.world (UInt16.ofNat (0x200 + i.val) >>> 8).toUInt8
  have hmarked : marked.Has inst handler slot :=
    ⟨hs.ok.page, hs.ok.cx, hs.ok.c0, hs.ok.active, hs.ok.buffer⟩
  have hstore : bus.store marked (UInt16.ofNat (0x200 + i.val)) b
      = some (marked.setImage (UInt16.ofNat (0x200 + i.val)) b) := by
    show (match marked.memory.memwrite (pageOf (UInt16.ofNat (0x200 + i.val))) with
      | .live => _
      | .store l => _
      | .null => none) = _
    rw [pageOf_bufferAddr, hmarked.buffer]
  have hview : (marked.setImage (UInt16.ofNat (0x200 + i.val)) b).clockView
      = v.store (0x200 + i.val) b := by
    rw [clockView_setImage, ← hs.view]
    rfl
  have hwritten : h.writeByte bus pc (UInt16.ofNat (0x200 + i.val)) b x
      = { h with world := marked.setImage (UInt16.ofNat (0x200 + i.val)) b } := by
    unfold Cpu.Host.writeByte
    dsimp only
    rw [hstore]
  rw [hwritten]
  exact ⟨hmarked.setImage i b, hview, hs.irq, hs.nmi⟩

/-- Memory below the end of the buffer is what is seen of it. -/
theorem shows_ram (v : ClockView) {i : Nat} (hi : i < 0x300) :
    (clockSetting ty inst handler floatingBus other slot).Shows v i (v.ram i) := by
  intro w hok hview
  rw [← hview]
  show (if _ then w.memory.memByte _ else 0) = if i < 0x300 then _ else _
  rw [if_pos (by omega), if_pos hi]

variable (ty inst handler floatingBus other) in
/-- **The emulator's machine has the card in its slot.** -/
theorem clockSlot_clockSetting (hslot : slot ≠ 0) :
    ClockSlot (clockSetting ty inst handler floatingBus other slot) slot where
  rom := code_slotRom hslot
  digit := reads_digit
  strobe := touches_strobe
  store := writes_buffer
  ram v _ hi := shows_ram v hi

end Machine

/-! ## Registration -/

/-- What the clock card asks for: its page, and a function for its registers. -/
def clockPeripheral {I H : Type} (inst : I) (handler : H) (slot : Slot) : Slots.Card I H where
  compatible s := s ≠ 0
  inst := inst
  calls := [.registerCxRom fun o => (slotRom slot).getD o.val 0,
    .registerIo (some handler) none none none]
  ok := true

/-- **A card that is registered in an empty slot is there**, where the slot's page is shown. -/
theorem has_peripheralRegister {I H R : Type} {inst : I} {handler : H} {slot : Slot}
    {h : Slots.Host I H} (hslot : slot ≠ 0) (hempty : h.active slot = [])
    (hshadow : h.io.memory.memshadow (slotPage slot) = cxPeripheralPtr (slotPage slot))
    (hbuffer : h.io.memory.memwrite 2 = .live) (card : ClockCard) (now : Option HostLocalTime)
    (rest : R) : ClockMachine.Has inst handler slot
      ⟨h.peripheralRegister (clockPeripheral inst handler slot) slot, card, now, rest⟩ := by
  have haccepts : h.accepts (clockPeripheral inst handler slot) slot = true := by
    unfold Host.accepts clockPeripheral
    rw [hempty]
    simp [hslot]
  let rom : PageData := fun o => (slotRom slot).getD o.val 0
  let ap : ActivePeripheral I H := ⟨none, some handler, none, none, none, none⟩
  have hlast (t : Slots.Host I H) (f : ActivePeripheral I H → ActivePeripheral I H)
      (ap₀ : ActivePeripheral I H) (ht : t.active slot = [ap₀]) : t.updateLast slot f
        = { t with
            active := Function.update t.active slot [f ap₀]
            io := t.io.registerSlot slot (f ap₀) } := by
    unfold Host.updateLast
    rw [ht]
    rfl
  -- the card's init stores its ROM and registers its page, and the host then enters the instance
  have hinit : h.initCard (clockPeripheral inst handler slot) slot
      = { h with
          active := Function.update (Function.update h.active slot [.new]) slot [ap]
          io := (h.io.storeCxRom slot rom).registerSlot slot ap } := by
    unfold Host.initCard
    rw [hempty]
    exact hlast { h with
        active := Function.update h.active slot [.new], io := h.io.storeCxRom slot rom } _ .new
      (Function.update_self ..)
  have hhost : h.peripheralRegister (clockPeripheral inst handler slot) slot
      = { h with
          active := Function.update (Function.update (Function.update h.active slot [.new]) slot [ap])
            slot [{ ap with inst := some inst }]
          io := (h.io.storeCxRom slot rom).registerSlot slot ap } := by
    unfold Host.peripheralRegister
    rw [if_pos haccepts, hinit]
    dsimp only
    rw [Function.update_self]
    rfl
  -- of all this only the stored page reaches the memory
  have hmemory : ((h.io.storeCxRom slot rom).registerSlot slot ap).memory
      = storeCxPage slot rom h.io.memory := by
    unfold IoMemory.registerSlot IoMemory.storeCxRom
    rw [IoMemory.memory_registerIoHandler, if_neg hslot]
  have htable (i : Nat) := table_registerSlot (h.io.storeCxRom slot rom) slot ap false i
  rw [hhost]
  constructor
  case page =>
    show ((h.io.storeCxRom slot rom).registerSlot slot ap).memory.mem (slotPage slot) = rom
    rw [hmemory]
    unfold storeCxPage
    dsimp only
    rw [if_pos hshadow, Function.update_self]
  case cx =>
    have hout : ¬inC0 slot (0x100 + slot.val) = true := by
      rw [inC0_iff]
      omega
    refine (htable (0x100 + slot.val)).trans ?_
    rw [if_neg hout, if_pos ⟨hslot, rfl⟩]
    rfl
  case c0 =>
    intro r hr
    refine (htable (0x80 + 0x10 * slot.val + r)).trans (if_pos ?_)
    rw [inC0_iff]
    omega
  case active =>
    dsimp only
    rw [Function.update_self]
    rfl
  case buffer =>
    show ((h.io.storeCxRom slot rom).registerSlot slot ap).memory.memwrite 2 = .live
    rw [hmemory]
    exact hbuffer

/-! ## The call -/

section Call

variable {I H R : Type} [DecidableEq I] [DecidableEq H] {ty : Apple2Type} {inst : I} {handler : H}
  {floatingBus : ClockMachine I H R → UInt32 → UInt8}
  {other : ClockMachine I H R → Cpu.IoAccess → Route I H →
    UInt8 × ClockMachine I H R × List Cpu.HostCall}
  {slot : Slot}

/-- **The firmware of the clock card works**, on either processor, in any slot but slot 0, whatever
else is in the machine. It is called at `$Cn08`, with no interrupt asked for: after 108 instructions
the processor is behind the call, the card has the host's time, and the buffer at `$0200` has it
written out; nothing else below `$0300` has changed, and the card can be called again. -/
theorem firmware_reads_time {cmos : Bool} {s : Cpu.CpuState (ClockMachine I H R)}
    (hslot : slot ≠ 0) (hhas : s.host.world.Has inst handler slot)
    (hpc : s.regs.pc = romAddr slot 0x08) (hsp : Cpu.OnStack s.regs.sp)
    (hirq : s.host.lines.bmIrq = 0) (hnmi : s.host.lines.nmiFlank = false) :
    let bus := clockBus ty inst handler floatingBus other
    let t := (Cpu.CpuState.turn bus cmos)^[108] s
    let card := s.host.world.card.updateLatches s.host.world.now
    let low := bus.mem s.host.world (Cpu.popSp s.regs.sp).toNat
    let high := bus.mem s.host.world (Cpu.popSp (Cpu.popSp s.regs.sp)).toNat
    t.regs.pc = Byte.word low high + 1 ∧ t.regs.sp = Cpu.popSp (Cpu.popSp s.regs.sp)
      ∧ t.host.world.card = card ∧ t.host.world.Has inst handler slot
      ∧ (∀ i, i < 0x300 → bus.mem t.host.world i =
        if 0x200 ≤ i ∧ i < 0x20F then textByte card.latches (i - 0x200)
        else bus.mem s.host.world i)
      ∧ ∀ time ∈ s.host.world.now, ∀ n, n < 15 → bus.mem t.host.world (0x200 + n) = time.text n := by
  intro bus t card low high
  -- the firmware's view of the memory is its first `$300` bytes, the stack among them
  have hram (w : ClockMachine I H R) (i : Nat) (hi : i < 0x300) :
      bus.mem w i = w.clockView.ram i := by
    show (if i < 0x10000 then _ else _) = if i < 0x300 then _ else _
    rw [if_pos (by omega), if_pos hi]
  have hstack (sp : UInt16) (hsp : Cpu.OnStack sp) :
      s.host.world.clockView.ram sp.toNat = bus.mem s.host.world sp.toNat := by
    have hlt := (Cpu.onStack_iff.1 hsp).2
    exact (hram _ _ (by omega)).symm
  have hpopped := Cpu.onStack_popSp hsp
  -- the machine as the run of the ROM sees it at the entry point
  have hstart : (clockSetting ty inst handler floatingBus other slot).Pictures s
      ⟨s.regs.a, s.regs.x, s.regs.y, romAddr slot 0x08, s.regs.sp, s.ctx.flagc, s.ctx.flagz,
        s.host.world.clockView⟩ :=
    ⟨rfl, rfl, rfl, hpc, rfl, rfl, rfl, hhas, rfl, hirq, hnmi⟩
  obtain ⟨q, hq, hqpc, hqsp, hview⟩ :=
    (clockSlot_clockSetting ty inst handler floatingBus other hslot).read_time cmos hsp
      (hstack _ hpopped) (hstack _ (Cpu.onStack_popSp hpopped)) hstart
  have hseen : t.host.world.clockView = s.host.world.clockView.read := hq.sees.view.trans hview
  have hmem (i : Nat) (hi : i < 0x300) : bus.mem t.host.world i =
      if 0x200 ≤ i ∧ i < 0x20F then textByte card.latches (i - 0x200)
      else bus.mem s.host.world i := by
    rw [hram _ i hi, hram _ i hi, hseen]
    rfl
  refine ⟨hq.pc.trans hqpc, hq.sp.trans hqsp, congrArg ClockView.card hseen, hq.sees.ok, hmem, ?_⟩
  intro time htime n hn
  have hdigits : card.latches = time.digits := by
    show (s.host.world.card.updateLatches s.host.world.now).latches = _
    rw [htime]
    exact latches_updateLatches _ time
  rw [hmem _ (by omega), if_pos (by omega), Nat.add_sub_cancel_left, hdigits,
    textByte_digits time hn]

end Call

/-- Slots with nothing in them, and a memory that maps the ROMs of the slots. -/
def emptySlots : Host Unit Unit where
  io := { IoMemory.blank with
    memory := { MemoryInstance.blank with
      memshadow := cxPeripheralPtr
      memwrite := fun _ => .live } }
  active := fun _ => []
  direct := []

/-- A machine with a clock card in slot 4, a minute before the year ends, and nothing else. -/
def clockInSlot4 : ClockMachine Unit Unit Unit where
  slots := emptySlots.peripheralRegister (clockPeripheral () () 4) 4
  card := {}
  now := some ⟨12, 4, 31, 23, 59⟩
  rest := ()

/-- The bus of such a machine. -/
def slot4Bus : Cpu.Bus (ClockMachine Unit Unit Unit) :=
  clockBus .apple2 () () (fun _ _ => 0xA0) fun w _ _ => (0xA0, w, [])

/-- The processor calls the card. -/
def callsClock : Cpu.CpuState (ClockMachine Unit Unit Unit) where
  regs := ⟨0, 0, 0, 0x30, romAddr 4 0x08, 0x01FD, false⟩
  ctx := ⟨0, 0, 0, 0, 0, 0, 0, 0⟩
  host := ⟨clockInSlot4, ⟨0, 0, 0, false⟩, ⟨0, 0, false⟩, 0, [], [], []⟩

/-- `12,04,31,23,59` -/
theorem firmware_reads_time_slot4 :
    (List.range 15).map (fun n =>
      slot4Bus.mem ((Cpu.CpuState.turn slot4Bus true)^[108] callsClock).host.world (0x200 + n))
      = [0xB1, 0xB2, 0xAC, 0xB0, 0xB4, 0xAC, 0xB3, 0xB1, 0xAC, 0xB2, 0xB3, 0xAC, 0xB5, 0xB9,
        0x80] := by
  have hhas : clockInSlot4.Has () () 4 :=
    has_peripheralRegister (by decide) rfl rfl rfl {} (some ⟨12, 4, 31, 23, 59⟩) ()
  have hcall := @firmware_reads_time Unit Unit Unit _ _ .apple2 () () (fun _ _ => 0xA0)
    (fun w _ _ => (0xA0, w, [])) 4 true callsClock (by decide) hhas rfl (by decide) rfl rfl
  have hread := hcall.2.2.2.2.2 ⟨12, 4, 31, 23, 59⟩ rfl
  rw [slot4Bus, List.map_congr_left fun n hn => hread n (List.mem_range.1 hn)]
  decide

end LinApple.Cards
