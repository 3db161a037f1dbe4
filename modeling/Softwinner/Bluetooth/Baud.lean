import Mathlib.Data.Nat.Notation
import Mathlib.Tactic.Common

/-!
# Baud rates

The conversions between the controller's codes for baud rates, line speeds, the symbols of the
serial port library and the speeds of the terminal interface: `hardware.c` and
`userial_vendor.c` of the Bluetooth vendor library.  A speed of the terminal interface is the
number of bits per second that it stands for.
-/

namespace Softwinner.Bluetooth

/-- `baudrate_ex`. -/
structure BaudrateEx where
  rtkSpeed : ℕ
  uartSpeed : ℕ
deriving DecidableEq

def baudrates : List BaudrateEx :=
  [⟨0x00006004, 921600⟩, ⟨0x05F75004, 921600⟩, ⟨0x00004003, 1500000⟩, ⟨0x04928002, 1500000⟩,
    ⟨0x00005002, 2000000⟩, ⟨0x00008001, 3000000⟩, ⟨0x04928001, 3000000⟩, ⟨0x00007001, 3500000⟩,
    ⟨0x052A6001, 3500000⟩, ⟨0x00005001, 4000000⟩, ⟨0x0000701d, 115200⟩, ⟨0x0252C002, 115200⟩]

/-- `rtk_speed_to_uart_speed`. -/
def rtkSpeedToUartSpeed (rtkSpeed : ℕ) : ℕ :=
  match baudrates.find? fun b => b.rtkSpeed = rtkSpeed with
  | some b => b.uartSpeed
  | none => 115200

/-- The pairs of `line_speed_to_userial_baud`: a line speed and its `USERIAL_BAUD` symbol. -/
def userialBauds : List (ℕ × ℕ) :=
  [(4000000, 15), (3000000, 14), (2000000, 13), (1500000, 12), (1000000, 11), (921600, 10),
    (460800, 9), (230400, 8), (115200, 7), (57600, 6), (19200, 5), (9600, 4), (1200, 2), (600, 1)]

/-- `line_speed_to_userial_baud`; the symbol 7 is `USERIAL_BAUD_115200`. -/
def lineSpeedToUserialBaud (lineSpeed : ℕ) : ℕ :=
  match userialBauds.find? fun p => p.1 = lineSpeed with
  | some p => p.2
  | none => 7

/-- `userial_to_tcio_baud`: the speed, and whether the symbol is supported. -/
def userialToTcioBaud (cfgBaud : ℕ) : ℕ × Bool :=
  match userialBauds.find? fun p => p.2 = cfgBaud with
  | some p => (p.1, true)
  | none => (115200, false)

/-- The speed that the host's port gets for a code of the controller. -/
def hostSpeed (rtkSpeed : ℕ) : ℕ :=
  (userialToTcioBaud (lineSpeedToUserialBaud (rtkSpeedToUartSpeed rtkSpeed))).1

/-- What a lookup gives is in the table, or the default. -/
lemma rtkSpeedToUartSpeed_mem (rtkSpeed : ℕ) :
    (∃ b ∈ baudrates, b.rtkSpeed = rtkSpeed ∧ rtkSpeedToUartSpeed rtkSpeed = b.uartSpeed) ∨
      rtkSpeedToUartSpeed rtkSpeed = 115200 := by
  unfold rtkSpeedToUartSpeed
  cases hfind : baudrates.find? fun b => b.rtkSpeed = rtkSpeed with
  | none => exact Or.inr rfl
  | some b =>
    exact Or.inl ⟨b, List.mem_of_find?_eq_some hfind,
      by simpa using List.find?_some hfind, rfl⟩

/-- The serial port library has no symbol for 3.5 Mbit/s: these codes leave the host at 115200. -/
lemma hostSpeed_eq_iff (rtkSpeed : ℕ) :
    hostSpeed rtkSpeed = rtkSpeedToUartSpeed rtkSpeed ↔
      rtkSpeed ≠ 0x7001 ∧ rtkSpeed ≠ 0x052A6001 := by
  have hport : ∀ b ∈ baudrates,
      ((userialToTcioBaud (lineSpeedToUserialBaud b.uartSpeed)).1 = b.uartSpeed ↔
        b.rtkSpeed ≠ 0x7001 ∧ b.rtkSpeed ≠ 0x052A6001) := by decide
  by_cases hmem : ∃ b ∈ baudrates, b.rtkSpeed = rtkSpeed
  · rcases rtkSpeedToUartSpeed_mem rtkSpeed with ⟨b, hb, rfl, heq⟩ | hdefault
    · rw [hostSpeed, heq]
      exact hport b hb
    · have hcode : ∀ b ∈ baudrates, rtkSpeedToUartSpeed b.rtkSpeed = 115200 →
          b.rtkSpeed ≠ 0x7001 ∧ b.rtkSpeed ≠ 0x052A6001 := by decide
      obtain ⟨b, hb, rfl⟩ := hmem
      rw [hostSpeed, hdefault]
      exact iff_of_true rfl (hcode b hb hdefault)
  · have hdefault : rtkSpeedToUartSpeed rtkSpeed = 115200 := by
      rcases rtkSpeedToUartSpeed_mem rtkSpeed with ⟨b, hb, heq, -⟩ | h
      · exact absurd ⟨b, hb, heq⟩ hmem
      · exact h
    rw [hostSpeed, hdefault]
    refine iff_of_true rfl ⟨?_, ?_⟩
    · rintro rfl
      exact hmem ⟨⟨0x7001, 3500000⟩, by decide, rfl⟩
    · rintro rfl
      exact hmem ⟨⟨0x052A6001, 3500000⟩, by decide, rfl⟩

end Softwinner.Bluetooth
