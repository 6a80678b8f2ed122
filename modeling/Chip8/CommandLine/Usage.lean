/-!
# Chip8.CommandLine.Usage — the help page

The page that a request for help prints, wrapped at 80 columns.
-/

namespace Chip8.CommandLine

/-- The lines of the help page. -/
def helpLines : List String :=
  ["usage: runchip8.py [-h] [-c CLOCK_SPEED] [-r \x7bpygame,null\x7d] [-s SCALE]",
   "                   [-k KEYMAP] [-e \x7blinear,clip,wrap\x7d] [--seed SEED]",
   "                   [--max_ops MAX_OPS] [-d]",
   "                   filename",
   "",
   "positional arguments:",
   "  filename              ROM to execute (normally ending in .ch8 or .c8)",
   "",
   "options:",
   "  -h, --help            show this help message and exit",
   "  -c CLOCK_SPEED, --clock_speed CLOCK_SPEED",
   "                        set the CPU speed in operations/second (default 1000,",
   "                        0 = uncapped)",
   "  -r \x7bpygame,null\x7d, --renderer \x7bpygame,null\x7d",
   "                        set the rendering and input systems (null runs",
   "                        headless)",
   "  -s SCALE, --scale SCALE",
   "                        set the window width in PyGame mode (default 512)",
   "  -k KEYMAP, --keymap KEYMAP",
   "                        redefine the 16 PyGame keyscan codes for keys 0-F.",
   "                        Separate each decimal with a comma",
   "  -e \x7blinear,clip,wrap\x7d, --edge_mode \x7blinear,clip,wrap\x7d",
   "                        control sprite pixels beyond the screen edge: spill",
   "                        into the next row and halt past the end (linear,",
   "                        default), drop them (clip), or wrap them around (wrap)",
   "  --seed SEED           seed the random number generator, so a run can be",
   "                        repeated exactly",
   "  --max_ops MAX_OPS     stop after executing this many instructions",
   "  -d, --debug           print the machine state before every instruction.",
   "                        Slows CPU execution"]

end Chip8.CommandLine
