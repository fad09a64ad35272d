/-!
# Help
-/

namespace Thumbnailer.CommandLine

def helpLines : List String :=
  [
    "usage: ffthumbs [-h] -i INPUTS [--config CONFIG] [--interval INTERVAL]",
    "                [--width WIDTH] [--height HEIGHT]",
    "                [--behavior \x7bcrop,crop_to_fit,fill,fill_to_keep_aspect_ratio,none\x7d]",
    "                [--type \x7bsprites,thumbnails,thumbs\x7d] [--rows ROWS]",
    "                [--cols COLS] [--quality QUALITY] [--dst DST]",
    "                [--concurrency CONCURRENCY] [--ffmpeg FFMPEG_PATH]",
    "                [--header 'NAME: VALUE'] [--no-progress] [-v]",
    "",
    "Generate thumbnails and sprites from videos with ffmpeg.",
    "",
    "options:",
    "  -h, --help            show this help message and exit",
    "  -i INPUTS, --input INPUTS",
    "                        Media path or URL (repeat for several inputs)",
    "  --config CONFIG       YAML settings file describing the outputs; output",
    "                        options below are ignored when set",
    "  --interval INTERVAL   Snapshot interval in seconds (default: 7)",
    "  --width WIDTH         Thumbnail width, -1 to keep aspect ratio",
    "  --height HEIGHT       Thumbnail height, -1 to keep aspect ratio",
    "  --behavior \x7bcrop,crop_to_fit,fill,fill_to_keep_aspect_ratio,none\x7d",
    "                        Scale behavior",
    "  --type \x7bsprites,thumbnails,thumbs\x7d",
    "                        Output type",
    "  --rows ROWS           Sprite rows",
    "  --cols COLS           Sprite columns",
    "  --quality QUALITY     JPEG quality 1-31, lower is better (0 = ffmpeg",
    "                        default)",
    "  --dst DST             Output destination pattern",
    "  --concurrency CONCURRENCY",
    "                        Max concurrent ffmpeg processes (default: 2);",
    "                        overrides the settings file value",
    "  --ffmpeg FFMPEG_PATH  Path to ffmpeg binary (default: search PATH)",
    "  --header 'NAME: VALUE'",
    "                        HTTP header for network inputs (repeatable)",
    "  --no-progress         Disable ffmpeg progress logs",
    "  -v, --verbose         Enable debug logging"
  ]

def help : String := "\n".intercalate helpLines

end Thumbnailer.CommandLine
