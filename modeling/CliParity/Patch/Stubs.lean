import CliParity.Patch.Lines

/-!
# Parts of the repeater's command line as shipped

The texts that the patches look for. They are matched character by character, so indentation and
blank lines count.
-/

set_option autoImplicit false

namespace CliParity.Snippet

/-! ## Places -/

/-- The line that imports the module of times. -/
def timeImport : List Char := "import time\n".toList

/-- The start of the line that ends the imports. -/
def loggerLine : List Char := "\nlogger = ".toList

/-- The assignment of the repeater's part of the configuration. -/
def configAssignment : List Char :=
  "self.repeater_config = config.get('repeater', \x7b\x7d)".toList

/-- The last statement of the log command's method. -/
def unknownLogReturn : List Char := "return \"Unknown log command\"".toList

/-! ## Methods and routes -/

/-- The method that refuses to reboot. -/
def rebootStub : List Char := ofLines
  ["def _cmd_reboot(self) -> str:",
   "        \"\"\"Reboot the repeater process.\"\"\"",
   "        logger.warning(\"Reboot command received - not implemented (use systemctl restart)\")",
   "        return \"Error: Use systemctl restart pymc-repeater\""]

/-- The method that does not clear the statistics yet. -/
def clearStatsStub : List Char := ofLines
  ["def _cmd_clear_stats(self) -> str:",
   "        \"\"\"Clear statistics.\"\"\"",
   "        # TODO: Implement stats clearing",
   "        return \"Error: Not yet implemented\""]

/-- The method that checks for a key and removes no neighbour. -/
def neighborRemoveStub : List Char := ofLines
  ["def _cmd_neighbor_remove(self, command: str) -> str:",
   "        \"\"\"Remove a neighbor.\"\"\"",
   "        pubkey_hex = command[16:].strip()",
   "        ",
   "        if not pubkey_hex:",
   "            return \"ERR: Missing pubkey\"",
   "        ",
   "        # TODO: Remove neighbor from routing table",
   "        logger.info(f\"neighbor.remove: \x7bpubkey_hex\x7d\")",
   "        return \"Error: Not yet implemented\""]

/-- The method that checks temporary radio parameters and does not apply them. -/
def tempRadioStub : List Char := ofLines
  ["def _cmd_tempradio(self, command: str) -> str:",
   "        \"\"\"Apply temporary radio parameters.\"\"\"",
   "        # Format: tempradio \x7bfreq\x7d \x7bbw\x7d \x7bsf\x7d \x7bcr\x7d \x7btimeout_mins\x7d",
   "        parts = command[10:].split()",
   "        ",
   "        if len(parts) < 5:",
   "            return \"Error: Expected freq bw sf cr timeout_mins\"",
   "        ",
   "        try:",
   "            freq = float(parts[0])",
   "            bw = float(parts[1])",
   "            sf = int(parts[2])",
   "            cr = int(parts[3])",
   "            timeout_mins = int(parts[4])",
   "            ",
   "            # Validate",
   "            if not (300.0 <= freq <= 2500.0):",
   "                return \"Error: invalid frequency\"",
   "            if not (7.0 <= bw <= 500.0):",
   "                return \"Error: invalid bandwidth\"",
   "            if not (5 <= sf <= 12):",
   "                return \"Error: invalid spreading factor\"",
   "            if not (5 <= cr <= 8):",
   "                return \"Error: invalid coding rate\"",
   "            if timeout_mins <= 0:",
   "                return \"Error: invalid timeout\"",
   "            ",
   "            # TODO: Apply temporary radio parameters",
   "            logger.info(f\"tempradio: \x7bfreq\x7dMHz \x7bbw\x7dkHz SF\x7bsf\x7d CR4/\x7bcr\x7d for \x7btimeout_mins\x7dmin\")",
   "            return \"Error: Not yet implemented\"",
   "            ",
   "        except ValueError:",
   "            return \"Error, invalid params\""]

/-- The route of all statistics commands to an error. -/
def statsRoutingStub : List Char := ofLines
  ["# Statistics commands",
   "        elif command.startswith(\"stats-\"):",
   "            return \"Error: Stats commands not fully implemented yet\""]

/-- The route of the version command. -/
def versionRouting : List Char := ofLines
  ["elif command == \"ver\":",
   "            return self._cmd_version()"]

end CliParity.Snippet
