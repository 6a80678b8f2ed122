/-!
# Chip8.Platform — the fixed numbers of the machine

The memory map, the number of keys, the colours of the screen, the rates of the timers and of the
processor, the glyphs of the hexadecimal digits, and the lines with which the program introduces
itself.  The sizes of the parts of the machine stand in their types.
-/

namespace Chip8.Platform

/-! ## Identification -/

def appName : String := "Chip8VM Emulator"

def appVersion : String := "1.0.0"

def appCopyright : String :=
  "Copyright (C) 2022 Gregory Maynard-Hoare, licensed under GNU Affero General Public License v3.0"

/-- Opens the banner and every halt report. -/
def appIntro : String := appName ++ " V" ++ appVersion ++ " -- "

/-! ## Memory map -/

abbrev startAddress : Int := 0x200

abbrev fontAddress : Int := 0x50

/-- Programs fill the memory from the start address to its end. -/
abbrev maxProgramSize : Nat := 0xE00

/-! ## Keypad and screen -/

abbrev keyCount : Nat := 16

/-- The packed colour of a lit pixel: all 32 bits set. -/
def pixelOn : Nat := 0xFFFFFFFF

/-- The packed colour of an unlit pixel. -/
def pixelOff : Nat := 0

/-! ## Rates -/

/-- Instructions per second, unless the user says otherwise. -/
def defaultClockSpeed : Int := 1000

/-- Both timers count down at this rate, in hertz. -/
def timerRate : Float := 60.0

/-! ## Keys -/

/-- The host key codes of the keys `0` to `F`. -/
def defaultKeymap : String := "120,49,50,51,113,119,101,97,115,100,122,99,52,114,102,118"

/-! ## Font -/

/-- Rows in a glyph, one byte each. -/
abbrev glyphSize : Nat := 5

/-- The glyphs of the digits `0` to `F`, one after another. -/
def fontSet : List UInt8 :=
  [0xF0, 0x90, 0x90, 0x90, 0xF0,
   0x20, 0x60, 0x20, 0x20, 0x70,
   0xF0, 0x10, 0xF0, 0x80, 0xF0,
   0xF0, 0x10, 0xF0, 0x10, 0xF0,
   0x90, 0x90, 0xF0, 0x10, 0x10,
   0xF0, 0x80, 0xF0, 0x10, 0xF0,
   0xF0, 0x80, 0xF0, 0x90, 0xF0,
   0xF0, 0x10, 0x20, 0x40, 0x40,
   0xF0, 0x90, 0xF0, 0x90, 0xF0,
   0xF0, 0x90, 0xF0, 0x10, 0xF0,
   0xF0, 0x90, 0xF0, 0x90, 0x90,
   0xE0, 0x90, 0xE0, 0x90, 0xE0,
   0xF0, 0x80, 0x80, 0x80, 0xF0,
   0xE0, 0x90, 0x90, 0x90, 0xE0,
   0xF0, 0x80, 0xF0, 0x80, 0xF0,
   0xF0, 0x80, 0xF0, 0x80, 0x80]

end Chip8.Platform
